import EulerFlow.Proofs.ParseSound
import EulerFlow.Proofs.Descent

namespace EulerFlow.Grammar

/-- What a routine reads where so many levels are left. -/
def Routine.reader (levels : Nat) : {y : Yield} → Routine y → Reader y.Value
  | _, .chain .sum => Grammar.expression (Grammar.unary levels)
  | _, .chain .product => Grammar.term (Grammar.unary levels)
  | _, .unary => Grammar.unary levels
  | _, .signed => Grammar.signed (Grammar.unary levels)
  | _, .power => Grammar.power (Grammar.unary levels)
  | _, .primary => Grammar.primary (Grammar.unary levels)
  | _, .arguments => Grammar.arguments (Grammar.unary levels)

section

variable {tokens ts us : List Token} {pos : Nat} {t : Token}

theorem peek_eq (stands : tokens.drop pos = ts) : tokens[pos]? = ts.head? := by
  rw [← List.head?_drop, stands]

theorem peek_cons (stands : tokens.drop pos = t :: us) : tokens[pos]? = some t ∧ tokens.drop (pos + 1) = us := by
  refine ⟨peek_eq stands, ?_⟩
  rw [← List.tail_drop, stands, List.tail_cons]

theorem head?_ne (other : ∀ us, ts = t :: us → False) : ts.head? ≠ some t := by
  intro here
  obtain ⟨us, whole⟩ := List.head?_eq_some_iff.mp here
  exact other us whole

end

namespace Machine

variable {z : Yield} {outermost : Routine z} {tokens ts us : List Token} {depth pos : Nat} {m first : Machine outermost}
  {x y : Yield} {own : Routine x} {awaited : Routine y}

/-- From a moment on, a routine comes to return what was read, at the level at which it was called and with the same
calls waiting. -/
def Returns (tokens : List Token) (m : Machine outermost) (depth : Nat) {y : Yield} (routine : Routine y)
    (calls : Calls outermost routine) {ts : List Token} : Except ParseError (Parsed y.Value ts) → Prop
  | .error fault => ∃ pos, m.Reaches tokens ⟨pos, depth, routine, calls, .leave (.error fault)⟩
  | .ok p => ∃ pos, tokens.drop pos = p.rest ∧ m.Reaches tokens ⟨pos, depth, routine, calls, .leave (.ok p.value)⟩

theorem Returns.after {calls : Calls outermost own} {outcome : Except ParseError (Parsed x.Value ts)}
    (reaches : m.Reaches tokens first) (returns : first.Returns tokens depth own calls outcome) :
    m.Returns tokens depth own calls outcome := by
  cases outcome with
  | error fault =>
    obtain ⟨pos, run⟩ := returns
    exact ⟨pos, reaches.trans run⟩
  | ok p =>
    obtain ⟨pos, rest, run⟩ := returns
    exact ⟨pos, rest, reaches.trans run⟩

theorem next?_error (latest : Waiting own awaited) (others : Calls outermost own) (unchecked : latest.levels = 0)
    (fault : ParseError) : next? tokens ⟨pos, depth, awaited, .wait latest others, .leave (.error fault)⟩ =
      some ⟨pos, depth, own, others, .leave (.error fault)⟩ := by
  cases latest with
  | level => cases unchecked
  | _ => rfl

/-- Where the awaited routine fails the waiting one does, and otherwise goes on with what was read. -/
theorem Returns.through {latest : Waiting own awaited} {calls : Calls outermost own}
    {part : Except ParseError (Parsed y.Value us)} {outcome : Except ParseError (Parsed x.Value ts)}
    (returns : m.Returns tokens depth awaited (.wait latest calls) part) (unchecked : latest.levels = 0)
    (fails : ∀ fault, part = .error fault → outcome = .error fault)
    (goesOn : ∀ p pos, part = .ok p → tokens.drop pos = p.rest →
      Returns tokens ⟨pos, depth, awaited, .wait latest calls, .leave (.ok p.value)⟩ depth own calls outcome) :
    m.Returns tokens depth own calls outcome := by
  cases part with
  | error fault =>
    obtain ⟨pos, run⟩ := returns
    rw [fails fault rfl]
    exact ⟨pos, run.tail (next?_error latest calls unchecked fault)⟩
  | ok p =>
    obtain ⟨pos, rest, run⟩ := returns
    exact Returns.after run (goesOn p pos rfl rest)

end Machine

open Machine

/-- Wherever it is called, the routine returns what the reader reads there. -/
def Routine.Follows {y : Yield} (routine : Routine y) (reader : Reader y.Value) (depth : Nat) : Prop :=
  ∀ ⦃z : Yield⦄ ⦃outermost : Routine z⦄ ⦃tokens ts : List Token⦄ ⦃pos : Nat⦄ (calls : Calls outermost routine),
    tokens.drop pos = ts → Returns tokens ⟨pos, depth, routine, calls, .enter⟩ depth routine calls (reader ts)

/-- The loop of a chain, entered with the operand that has just been read. -/
theorem chainFrom_returns {z : Yield} {outermost : Routine z} {tokens ts : List Token} {depth pos : Nat} {rank : Rank}
    {operand : Reader Expr} (follows : rank.operandRoutine.Follows operand depth) {left : Parsed Expr ts}
    {before : Option (Expr × String)} {last : Expr} (calls : Calls outermost (.chain rank))
    (stands : tokens.drop pos = left.rest) (value : joined before last = left.value) :
    Returns tokens ⟨pos, depth, rank.operandRoutine, .wait (.operand rank before) calls, .leave (.ok last)⟩ depth
      (.chain rank) calls (chainFrom rank.op? operand left) := by
  -- What the reader holds on the left is, on the side of the machine, what came before joined with the latest operand.
  fun_induction chainFrom rank.op? operand left generalizing pos before last with
  | case1 left following =>
    have peek := peek_eq (stands.trans following)
    refine ⟨pos, stands, .single ?_⟩
    simp only [next?, resume, orLeave, peek, List.head?_nil, Option.bind_none, value]
  | case2 left t us following stops =>
    have peek := peek_eq (stands.trans following)
    refine ⟨pos, stands, .single ?_⟩
    simp only [next?, resume, orLeave, peek, List.head?_cons, Option.bind_some, stops, value]
  | case3 left t us following op known fault failed =>
    obtain ⟨peek, next⟩ := peek_cons (stands.trans following)
    have right := follows (.wait (.operand rank (some (left.value, op))) calls) next
    refine Returns.after (.single ?_) (right.through rfl (fun _ same => ?_) fun _ _ read => ?_)
    · simp only [next?, resume, orLeave, peek, Option.bind_some, known, value]
    · cases failed.symm.trans same
      rfl
    · cases failed.symm.trans read
  | case4 left t us following op known right read consumed ih =>
    obtain ⟨peek, next⟩ := peek_cons (stands.trans following)
    obtain ⟨pos', rest, run⟩ := read ▸ follows (.wait (.operand rank (some (left.value, op))) calls) next
    refine Returns.after (.head ?_ run) (ih rest rfl)
    simp only [next?, resume, orLeave, peek, Option.bind_some, known, value]

theorem chain_follows {rank : Rank} {operand : Reader Expr} {depth : Nat}
    (follows : rank.operandRoutine.Follows operand depth) : (Routine.chain rank).Follows (chain rank.op? operand) depth := by
  intro z outermost tokens ts pos calls stands
  have first := follows (.wait (.operand rank none) calls) stands
  refine Returns.after (.single rfl) (first.through rfl (fun fault failed => ?_) fun left pos' read rest => ?_)
  · simp only [chain, failed]
  · simp only [chain, read]
    exact chainFrom_returns follows calls rest rfl

section

variable {unary : Reader Expr} {depth : Nat} (follows : Routine.unary.Follows unary depth)

include follows

theorem term_follows : Routine.term.Follows (term unary) depth :=
  chain_follows (show (Rank.operandRoutine .product).Follows unary depth from follows)

theorem expression_follows : Routine.expression.Follows (expression unary) depth :=
  chain_follows (show (Rank.operandRoutine .sum).Follows (term unary) depth from term_follows follows)

/-- The loop of the arguments, with those that have been read before. -/
theorem argumentsFrom_returns {z : Yield} {outermost : Routine z} {tokens ts : List Token} {pos : Nat}
    (calls : Calls outermost .arguments) (done : List Expr) (stands : tokens.drop pos = ts) :
    Returns tokens ⟨pos, depth, .expression, .wait (.argument done) calls, .enter⟩ depth .arguments calls
      ((argumentsFrom unary ts).map (Parsed.map (done ++ ·))) := by
  fun_induction argumentsFrom unary ts generalizing pos done with
  | case1 ts fault failed =>
    obtain ⟨pos', run⟩ := failed ▸ expression_follows follows (.wait (.argument done) calls) stands
    exact ⟨pos', run.tail rfl⟩
  | case2 ts first read following =>
    obtain ⟨pos', rest, run⟩ := read ▸ expression_follows follows (.wait (.argument done) calls) stands
    have peek := peek_eq (rest.trans following)
    refine ⟨pos', run.tail ?_⟩
    simp only [next?, resume, orLeave, peek, List.head?_nil]
  | case3 ts first read us following =>
    obtain ⟨pos', rest, run⟩ := read ▸ expression_follows follows (.wait (.argument done) calls) stands
    obtain ⟨peek, next⟩ := peek_cons (rest.trans following)
    refine ⟨pos' + 1, next, run.tail ?_⟩
    simp only [next?, resume, orLeave, peek]
    rfl
  | case4 ts first read us following consumed fault failed ih =>
    obtain ⟨pos', rest, run⟩ := read ▸ expression_follows follows (.wait (.argument done) calls) stands
    obtain ⟨peek, next⟩ := peek_cons (rest.trans following)
    refine Returns.after (run.tail ?_) (failed ▸ ih (done ++ [first.value]) next)
    simp only [next?, resume, orLeave, peek]
  | case5 ts first read us following consumed others readOthers ih =>
    obtain ⟨pos', rest, run⟩ := read ▸ expression_follows follows (.wait (.argument done) calls) stands
    obtain ⟨peek, next⟩ := peek_cons (rest.trans following)
    obtain ⟨pos'', others', later⟩ := readOthers ▸ ih (done ++ [first.value]) next
    simp only [Parsed.map, List.append_assoc, List.singleton_append] at others' later
    refine ⟨pos'', others', run.trans (.head ?_ later)⟩
    simp only [next?, resume, orLeave, peek]
  | case6 ts first read t us notClosing notComma following =>
    obtain ⟨pos', rest, run⟩ := read ▸ expression_follows follows (.wait (.argument done) calls) stands
    have peek := peek_eq (rest.trans following)
    refine ⟨pos' + 1, run.tail ?_⟩
    simp only [next?, resume, orLeave, peek, List.head?_cons]

theorem arguments_follows : Routine.arguments.Follows (arguments unary) depth := by
  intro z outermost tokens ts pos calls stands
  unfold arguments
  split
  · obtain ⟨peek, next⟩ := peek_cons stands
    refine ⟨pos + 1, next, .single ?_⟩
    simp only [next?, begin, peek]
  · rename_i notClosing
    have other := head?_ne notClosing
    -- The machine carries the arguments along from the first one on, the reader puts them together on the way back.
    have same : (argumentsFrom unary ts).map (Parsed.map ([] ++ ·)) = argumentsFrom unary ts := by
      cases argumentsFrom unary ts <;> rfl
    refine Returns.after (.single ?_) (same ▸ argumentsFrom_returns follows calls [] stands)
    simp only [next?, begin, peek_eq stands]

theorem primary_follows : Routine.primary.Follows (primary unary) depth := by
  intro z outermost tokens ts pos calls stands
  unfold primary
  split
  · have peek := peek_eq stands
    refine ⟨pos, .single ?_⟩
    simp only [next?, begin, peek, List.head?_nil]
  · obtain ⟨peek, next⟩ := peek_cons stands
    refine ⟨pos + 1, next, .single ?_⟩
    simp only [next?, begin, peek]
  · rename_i name us
    obtain ⟨peek, next⟩ := peek_cons stands
    obtain ⟨peek', next'⟩ := peek_cons next
    have args := arguments_follows follows (.wait (.call name) calls) next'
    refine Returns.after (.single ?_) (args.through rfl (fun fault failed => ?_) fun p pos' read rest => ?_)
    · simp only [next?, begin, peek, peek']
    · simp only [failed]
    · simp only [read]
      exact ⟨pos', rest, .single rfl⟩
  · rename_i name us notCall
    obtain ⟨peek, next⟩ := peek_cons stands
    refine ⟨pos + 1, next, .single ?_⟩
    have other := head?_ne notCall
    simp only [next?, begin, peek, peek_eq next]
  · rename_i us
    obtain ⟨peek, next⟩ := peek_cons stands
    have inner := expression_follows follows (.wait .group calls) next
    refine Returns.after (.single ?_) (inner.through rfl (fun fault failed => ?_) fun p pos' read rest => ?_)
    · simp only [next?, begin, peek]
    · simp only [failed]
    · simp only [read]
      split
      · rename_i following
        have peek := peek_eq (rest.trans following)
        refine ⟨pos', .single ?_⟩
        simp only [next?, resume, orLeave, peek, List.head?_nil]
      · rename_i us' following
        obtain ⟨peek, next⟩ := peek_cons (rest.trans following)
        refine ⟨pos' + 1, next, .single ?_⟩
        simp only [next?, resume, orLeave, peek]
      · rename_i t us' notClosing following
        have peek := peek_eq (rest.trans following)
        refine ⟨pos' + 1, .single ?_⟩
        simp only [next?, resume, orLeave, peek, List.head?_cons]
  · rename_i t us notNumber notCall notName notOpening
    have peek := peek_eq stands
    refine ⟨pos + 1, .single ?_⟩
    simp only [next?, begin, peek, List.head?_cons]

theorem power_follows : Routine.power.Follows (power unary) depth := by
  intro z outermost tokens ts pos calls stands
  have base := primary_follows follows (.wait .base calls) stands
  refine Returns.after (.single rfl) (base.through rfl (fun fault failed => ?_) fun p pos' read rest => ?_)
  · simp only [power, failed]
  · simp only [power, read]
    split
    · rename_i us following
      obtain ⟨peek, next⟩ := peek_cons (rest.trans following)
      have exponent := follows (.wait (.exponent p.value) calls) next
      refine Returns.after (.single ?_) (exponent.through rfl (fun fault failed => ?_) fun q pos'' read' rest' => ?_)
      · simp only [next?, resume, orLeave, peek]
      · simp only [failed]
      · simp only [read']
        exact ⟨pos'', rest', .single rfl⟩
    · rename_i notCaret
      have other := head?_ne notCaret
      refine ⟨pos', rest, .single ?_⟩
      simp only [next?, resume, orLeave, peek_eq rest]

theorem signed_follows : Routine.signed.Follows (signed unary) depth := by
  intro z outermost tokens ts pos calls stands
  unfold signed
  split
  · obtain ⟨peek, next⟩ := peek_cons stands
    have operand := follows (.wait (.sign "-") calls) next
    refine Returns.after (.single ?_) (operand.through rfl (fun fault failed => ?_) fun p pos' read rest => ?_)
    · simp only [next?, begin, peek]
    · simp only [failed]
    · simp only [read]
      exact ⟨pos', rest, .single rfl⟩
  · obtain ⟨peek, next⟩ := peek_cons stands
    have operand := follows (.wait (.sign "+") calls) next
    refine Returns.after (.single ?_) (operand.through rfl (fun fault failed => ?_) fun p pos' read rest => ?_)
    · simp only [next?, begin, peek]
    · simp only [failed]
    · simp only [read]
      exact ⟨pos', rest, .single rfl⟩
  · rename_i notMinus notPlus
    have other := head?_ne notMinus
    have other' := head?_ne notPlus
    have power := power_follows follows (.wait .unsigned calls) stands
    refine Returns.after (.single ?_) (power.through rfl (fun _ failed => failed) fun p pos' read rest => ?_)
    · simp only [next?, begin, peek_eq stands]
    · rw [read]
      exact ⟨pos', rest, .single rfl⟩

end

/-- The check of the nesting raises the level for what stands behind it, and lowers it again whatever comes of that. -/
theorem unary_follows {levels depth : Nat} (room : depth + levels = maxDepth) :
    Routine.unary.Follows (unary levels) depth := by
  induction levels generalizing depth with
  | zero =>
    intro z outermost tokens ts pos calls stands
    have full : depth ≥ maxDepth := Nat.le_of_eq room.symm
    refine ⟨pos, .single ?_⟩
    rw [next?, begin, if_pos full]
  | succ levels ih =>
    intro z outermost tokens ts pos calls stands
    have low : ¬ depth ≥ maxDepth := by omega
    have deeper : depth + 1 + levels = maxDepth := by omega
    have signed := signed_follows (ih deeper) (.wait .level calls) stands
    have first : Reaches tokens ⟨pos, depth, .unary, calls, .enter⟩
        ⟨pos, depth + 1, .signed, .wait .level calls, .enter⟩ := by
      refine .single ?_
      rw [next?, begin, if_neg low]
    rw [unary]
    cases read : Grammar.signed (unary levels) ts with
    | error fault =>
      obtain ⟨pos', run⟩ := read ▸ signed
      exact ⟨pos', (first.trans run).tail rfl⟩
    | ok p =>
      obtain ⟨pos', rest, run⟩ := read ▸ signed
      exact ⟨pos', rest, (first.trans run).tail rfl⟩

theorem routine_follows {y : Yield} (routine : Routine y) {levels depth : Nat} (room : depth + levels = maxDepth) :
    routine.Follows (routine.reader levels) depth := by
  have follows : Routine.unary.Follows (unary levels) depth := unary_follows room
  cases routine with
  | chain rank =>
    cases rank with
    | sum => exact expression_follows follows
    | product => exact term_follows follows
  | unary => exact follows
  | signed => exact signed_follows follows
  | power => exact power_follows follows
  | primary => exact primary_follows follows
  | arguments => exact arguments_follows follows

namespace Machine

variable {y : Yield} {tokens : List Token} {pos depth : Nat}

/-- The outermost call of a routine. -/
def start (routine : Routine y) (pos depth : Nat) : Machine routine :=
  ⟨pos, depth, routine, .none, .enter⟩

/-- The outermost call returns. -/
def finish (routine : Routine y) (pos depth : Nat) (result : Except ParseError y.Value) : Machine routine :=
  ⟨pos, depth, routine, .none, .leave result⟩

theorem start_reaches_finish (routine : Routine y) (tokens : List Token) (pos : Nat) (shallow : depth ≤ maxDepth) :
    ∃ after result, (start routine pos depth).Reaches tokens (finish routine after depth result) ∧
      result.map (·, tokens.drop after) =
        (routine.reader (maxDepth - depth) (tokens.drop pos)).map fun p => (p.value, p.rest) := by
  have follows : routine.Follows (routine.reader (maxDepth - depth)) depth :=
    routine_follows routine (Nat.add_sub_of_le shallow)
  have returns : (start routine pos depth).Returns tokens depth routine .none
      (routine.reader (maxDepth - depth) (tokens.drop pos)) := follows .none rfl
  cases read : routine.reader (maxDepth - depth) (tokens.drop pos) with
  | error fault =>
    obtain ⟨after, run⟩ := read ▸ returns
    exact ⟨after, .error fault, run, rfl⟩
  | ok p =>
    obtain ⟨after, rest, run⟩ := read ▸ returns
    refine ⟨after, .ok p.value, run, ?_⟩
    rw [Except.map, Except.map, rest]

/-- The moments of a run stand in one row, so whatever is reached comes before the end. -/
theorem Reaches.finish {z : Yield} {outermost : Routine z} {first m last : Machine outermost}
    (ends : first.Reaches tokens last) (halts : last.next? tokens = none) (reaches : first.Reaches tokens m) :
    m.Reaches tokens last := by
  have unique : Relator.RightUnique fun (m after : Machine outermost) => m.next? tokens = some after :=
    fun _ _ _ here there => Option.some.inj (here.symm.trans there)
  obtain before | behind := Relation.ReflTransGen.total_of_right_unique unique reaches ends
  · exact before
  · obtain same | ⟨after, next, _⟩ := behind.cases_head
    · exact same ▸ .refl
    · cases halts.symm.trans next

end Machine

/-- Called from any other routine or from none, with at most all the tokens consumed and at most all the levels used up,
a routine returns, to the same calls and at the same level, whether with a value or with an error; and what it returns
is what its reader reads. A value has cost at least one token. Up to the return the level is at every moment what it
was at the call and one more for each check that has been passed and not left, never above the limit, and no more
calls are active than the limit allows for, however many tokens there are. -/
theorem routine_returns_balanced {y : Yield} (routine : Routine y) {tokens : List Token} {pos depth : Nat}
    (within : pos ≤ tokens.length) (shallow : depth ≤ maxDepth) :
    ∃ after result,
      (∀ {z : Yield} {outermost : Routine z} (calls : Calls outermost routine),
        Reaches tokens ⟨pos, depth, routine, calls, .enter⟩ ⟨after, depth, routine, calls, .leave result⟩) ∧
      result.map (·, tokens.drop after) =
        (routine.reader (maxDepth - depth) (tokens.drop pos)).map (fun p => (p.value, p.rest)) ∧
      (∀ value, result = .ok value → pos < after ∧ after ≤ tokens.length) ∧
      (finish routine after depth result).next? tokens = none ∧
      ∀ m, (start routine pos depth).Reaches tokens m → m.Reaches tokens (finish routine after depth result) ∧
        m.Balanced tokens depth ∧ m.active ≤ 8 * maxDepth := by
  obtain ⟨after, result, run, agrees⟩ := start_reaches_finish routine tokens pos shallow
  have first : (start routine pos depth).Balanced tokens depth := ⟨within, rfl, shallow⟩
  have last := first.reaches run
  refine ⟨after, result, fun calls => run.onto calls, agrees, ?_, rfl, fun m reaches => ?_⟩
  · rintro value rfl
    refine ⟨?_, last.within⟩
    cases read : routine.reader (maxDepth - depth) (tokens.drop pos) with
    | error fault =>
      rw [read] at agrees
      cases agrees
    | ok p =>
      rw [read] at agrees
      have rest : tokens.drop after = p.rest := congrArg Prod.snd (Except.ok.inj agrees)
      have shorter := p.shorter
      rw [← rest, List.length_drop, List.length_drop] at shorter
      omega
  · have balanced := first.reaches reaches
    refine ⟨run.finish rfl reaches, balanced, Nat.le_trans balanced.active_le ?_⟩
    rw [maxDepth]
    omega

/-- Two levels below the limit the number would stand one too deep: behind the parenthesis and the sign nothing more may
be nested, and the error leaves both of them. -/
theorem too_deep_returns_balanced :
    let tokens : List Token := [.opening, .minus, .number 1, .closing]
    0 ≤ tokens.length ∧ 198 ≤ maxDepth ∧ ∃ after,
      (finish .expression after 198 (.error .tooDeep)).next? tokens = none ∧
      ∀ m, (start .expression 0 198).Reaches tokens m →
        m.Reaches tokens (finish .expression after 198 (.error .tooDeep)) ∧
        m.Balanced tokens 198 ∧ m.active ≤ 8 * maxDepth := by
  intro tokens
  have within : 0 ≤ tokens.length := by decide
  have shallow : 198 ≤ maxDepth := by decide
  obtain ⟨after, result, _, agrees, _, halts, run⟩ := routine_returns_balanced .expression within shallow
  have read : (Routine.expression.reader (maxDepth - 198) tokens).map (fun p => (p.value, p.rest)) =
      .error .tooDeep := by cbv
  have failed := agrees.trans read
  cases result with
  | error fault =>
    cases failed
    exact ⟨within, shallow, after, halts, run⟩
  | ok value => cases failed

end EulerFlow.Grammar
