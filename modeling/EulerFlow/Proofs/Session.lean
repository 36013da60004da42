import EulerFlow.Proofs.SetUp

namespace EulerFlow

namespace Model

/-- A reading of a text with the model that it leaves behind, whether or not it succeeds. -/
def reading (m : Model) (text : String) : Model × Except ParseError Expr :=
  match m.parse text with
  | .error fault => (m, .error fault)
  | .ok (expr, after, _) => (after, .ok expr)

variable {m : Model} {text : String}

theorem reading_error {fault : ParseError} (unread : Expr.parse text = .error fault) :
    m.reading text = (m, .error fault) := by
  simp only [reading, parse, unread]

theorem reading_ok {expr : Expr} (read : Expr.parse text = .ok expr) :
    m.reading text = ((m.declare expr.symbols).1, .ok expr) := by
  simp only [reading, parse, read]

end Model

/-- A call of the text interface. -/
inductive Request where
  | ode (symbol equation : String)
  | initial (symbol : String) (value : Float)
  | setInclusive (inclusive : Bool)
  | setAbort (abort : Bool)
  | get (symbol : String)
  | table
  | run

/-- What the caller gets back. -/
inductive Response where
  | registered (answer : Except String Unit)
  | changed
  | value (found : Option Float)
  | table (answer : Except String String)
  | run (answer : Except String (Summary × Trajectory))

/-- A call with its answer and what it put on record. -/
structure Turn where
  request : Request
  notices : List Notice
  response : Response

/-- Everything but an equation that was not taken. -/
def Turn.accepted (turn : Turn) : Bool :=
  match turn.response with
  | .registered (.error _) => false
  | _ => true

namespace TextModel

/-- What a request does to the model, and what it shows. -/
def turn (m : TextModel) (request : Request) : TextModel × Turn :=
  match request with
  | .ode symbol equation =>
    let reply := m.ode symbol equation
    (reply.model, ⟨request, reply.notices, .registered reply.answer⟩)
  | .initial symbol value => (m.initial symbol value, ⟨request, [], .changed⟩)
  | .setInclusive inclusive => (m.setInclusive inclusive, ⟨request, [], .changed⟩)
  | .setAbort abort => (m.setAbort abort, ⟨request, [], .changed⟩)
  | .get symbol => (m, ⟨request, [], .value (m.get? symbol)⟩)
  | .table =>
    let reply := m.table
    (reply.model, ⟨request, reply.notices, .table reply.answer⟩)
  | .run =>
    let reply := m.run
    (reply.model, ⟨request, reply.notices, .run reply.answer⟩)

/-- Calls one after the other, each on the model that the one before left behind. -/
def session (m : TextModel) : List Request → TextModel × List Turn
  | [] => (m, [])
  | request :: requests =>
    let (next, turn) := m.turn request
    let (after, turns) := next.session requests
    (after, turn :: turns)

theorem turn_request (m : TextModel) (request : Request) : (m.turn request).2.request = request := by
  cases request <;> rfl

theorem ode_error {m : TextModel} {symbol equation message : String}
    (refused : (m.ode symbol equation).answer = .error message) : (m.ode symbol equation).model = m := by
  unfold TextModel.ode at refused ⊢
  cases read : m.model.parse equation with
  | error fault => rfl
  | ok answer =>
    rw [read] at refused
    cases refused

/-- An equation that is not taken leaves the model as it was. -/
theorem turn_unaccepted {m : TextModel} {request : Request} (refused : (m.turn request).2.accepted = false) :
    (m.turn request).1 = m := by
  cases request with
  | ode symbol equation =>
    cases answer : (m.ode symbol equation).answer with
    | error message => exact ode_error answer
    | ok registered =>
      change Turn.accepted ⟨_, _, .registered (m.ode symbol equation).answer⟩ = false at refused
      rw [answer] at refused
      cases refused
  | initial | setInclusive | setAbort | get | table | run => cases refused

theorem session_requests (m : TextModel) (requests : List Request) :
    (m.session requests).2.map Turn.request = requests := by
  induction requests generalizing m with
  | nil => rfl
  | cons request requests ih =>
    exact congrArg₂ List.cons (m.turn_request request) (ih _)

/-- Whichever equations that were not taken are left out, all else goes as before. -/
theorem session_sublist (m : TextModel) (requests : List Request) {kept : List Turn}
    (sublist : kept.Sublist (m.session requests).2)
    (others : kept.filter Turn.accepted = (m.session requests).2.filter Turn.accepted) :
    m.session (kept.map Turn.request) = ((m.session requests).1, kept) := by
  induction requests generalizing m kept with
  | nil =>
    cases List.sublist_nil.mp sublist
    rfl
  | cons request requests ih =>
    change kept.Sublist ((m.turn request).2 :: ((m.turn request).1.session requests).2) at sublist
    change kept.filter _ = ((m.turn request).2 :: ((m.turn request).1.session requests).2).filter _ at others
    change _ = (((m.turn request).1.session requests).1, kept)
    cases sublist with
    | cons _ behind =>
      have refused : (m.turn request).2.accepted = false := by
        cases taken : (m.turn request).2.accepted with
        | false => rfl
        | true =>
          have short := (behind.filter Turn.accepted).length_le
          rw [others, List.filter_cons_of_pos taken, List.length_cons] at short
          omega
      rw [List.filter_cons_of_neg (by rw [refused]; exact Bool.false_ne_true)] at others
      rw [turn_unaccepted refused] at behind others ⊢
      exact ih m behind others
    | @cons_cons kept _ _ behind =>
      have others' : kept.filter Turn.accepted = ((m.turn request).1.session requests).2.filter Turn.accepted := by
        rw [List.filter_cons, List.filter_cons] at others
        split at others
        · exact (List.cons.inj others).2
        · exact others
      have rest := ih (m.turn request).1 behind others'
      rw [List.map_cons, turn_request]
      change (((m.turn request).1.session (kept.map Turn.request)).1,
        (m.turn request).2 :: ((m.turn request).1.session (kept.map Turn.request)).2) = _
      rw [rest]

end TextModel

/-- A text that is no expression leaves a model as it was; any other declares the names that it mentions, and nothing
else. So a session goes as if equations that were not taken had never been offered, or any of them. -/
theorem failed_readings_leave_no_trace :
    (∀ (m : Model) (text : String), let (after, answer) := m.reading text
      answer = Expr.parse text ∧
        match answer with
        | .error _ => after = m
        | .ok expr => after.system = m.system ∧ after.settings = m.settings ∧ ∀ name,
          after.valuation.get? name = (m.valuation.get? name).or (if name ∈ expr.symbols then some 0 else none)) ∧
    ∀ (m : TextModel) (requests : List Request), let (after, turns) := m.session requests
      turns.map Turn.request = requests ∧
        m.session ((turns.filter Turn.accepted).map Turn.request) = (after, turns.filter Turn.accepted) ∧
        ∀ kept : List Turn, kept.Sublist turns → kept.filter Turn.accepted = turns.filter Turn.accepted →
          m.session (kept.map Turn.request) = (after, kept) := by
  refine ⟨fun m text => ?_, fun m requests => ?_⟩
  · cases read : Expr.parse text with
    | error fault =>
      rw [Model.reading_error read]
      exact ⟨rfl, rfl⟩
    | ok expr =>
      rw [Model.reading_ok read]
      exact ⟨rfl, Model.declare_system _, Model.declare_settings _, fun name => Model.declare_get? _ name⟩
  · have left (kept : List Turn) := @TextModel.session_sublist m requests kept
    refine ⟨m.session_requests requests, left _ List.filter_sublist ?_, left⟩
    rw [List.filter_filter]
    simp only [Bool.and_self]

end EulerFlow
