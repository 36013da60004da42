import EulerFlow.Proofs.Agreement
import EulerFlow.Proofs.DefinedVariables

namespace EulerFlow

/-- A call that sets a model up for its run. -/
inductive Call where
  | initial (symbol : String) (value : Float)
  | ode (symbol text : String)

/-- The initial value that a call gives, if it gives one. -/
def Call.initial? : Call → Option (String × Float)
  | .initial symbol value => some (symbol, value)
  | .ode _ _ => none

/-- The equation that a call gives as a text, if it gives one. -/
def Call.equation? : Call → Option (String × String)
  | .initial _ _ => none
  | .ode symbol text => some (symbol, text)

/-- The equations that symbols with texts stand for. -/
def readOdes : List (String × String) → Except ParseError (List Ode)
  | [] => .ok []
  | (symbol, text) :: equations =>
    match Expr.parse text with
    | .error fault => .error fault
    | .ok expr => (readOdes equations).map (⟨symbol, expr⟩ :: ·)

theorem readOdes_cons {symbol text : String} {equations : List (String × String)} {odes : List Ode}
    (read : readOdes ((symbol, text) :: equations) = .ok odes) :
    ∃ expr others, Expr.parse text = .ok expr ∧ readOdes equations = .ok others ∧ odes = ⟨symbol, expr⟩ :: others := by
  unfold readOdes at read
  cases parsed : Expr.parse text with
  | error fault =>
    rw [parsed] at read
    cases read
  | ok expr =>
    simp only [parsed] at read
    cases rest : readOdes equations with
    | error fault =>
      rw [rest] at read
      cases read
    | ok others =>
      rw [rest] at read
      cases read
      exact ⟨expr, others, rfl, rfl, rfl⟩

/-- Texts that are expressions one by one are all read. -/
theorem readOdes_of_parsed {equations : List (String × String)}
    (parsed : ∀ entry ∈ equations, ∃ expr, Expr.parse entry.2 = .ok expr) : ∃ odes, readOdes equations = .ok odes := by
  induction equations with
  | nil => exact ⟨[], rfl⟩
  | cons entry equations ih =>
    obtain ⟨⟨expr, here⟩, others⟩ := List.forall_mem_cons.mp parsed
    obtain ⟨odes, rest⟩ := ih others
    exact ⟨⟨entry.1, expr⟩ :: odes, by simp only [readOdes, here, rest, Except.map]⟩

/-- Texts that are not all expressions have a first that is none. -/
theorem exists_first_unparsed {equations : List (String × String)}
    (unparsed : ∃ entry ∈ equations, ∃ fault, Expr.parse entry.2 = .error fault) :
    ∃ before symbol text after fault, equations = before ++ (symbol, text) :: after ∧
      (∀ entry ∈ before, ∃ expr, Expr.parse entry.2 = .ok expr) ∧ Expr.parse text = .error fault := by
  induction equations with
  | nil =>
    obtain ⟨_, member, _⟩ := unparsed
    cases member
  | cons entry equations ih =>
    obtain ⟨symbol, text⟩ := entry
    cases here : Expr.parse text with
    | error fault => exact ⟨[], symbol, text, equations, fault, rfl, List.forall_mem_nil _, here⟩
    | ok expr =>
      have behind : ∃ entry ∈ equations, ∃ fault, Expr.parse entry.2 = .error fault := by
        obtain ⟨other, member, fault, failed⟩ := unparsed
        rcases List.mem_cons.mp member with rfl | later
        · cases here.symm.trans failed
        · exact ⟨other, later, fault, failed⟩
      obtain ⟨before, first, source, after, fault, rfl, parsed, failed⟩ := ih behind
      exact ⟨(symbol, text) :: before, first, source, after, fault, rfl,
        List.forall_mem_cons.mpr ⟨⟨expr, here⟩, parsed⟩, failed⟩

/-- Names that get the value zero if they have none yet. -/
def Ode.names (ode : Ode) : List String :=
  ode.equation.symbols ++ [ode.symbol]

/-- What the declaration of some names gives a name. -/
def zeroed (names : List String) (name : String) : Option Float :=
  if name ∈ names then some 0 else none

theorem zeroed_append (names others : List String) (name : String) :
    zeroed (names ++ others) name = (zeroed names name).or (zeroed others name) := by
  unfold zeroed
  by_cases here : name ∈ names
  · rw [if_pos here, if_pos (List.mem_append_left _ here)]
    rfl
  · rw [if_neg here, Option.none_or]
    simp only [List.mem_append, here, false_or]

namespace Valuation

variable {v : Valuation} {name : String}

theorem or_zeroed_of_defined (defined : name ∈ v.names) (other : String) :
    (v.get? other).or (zeroed [name] other) = v.get? other := by
  obtain ⟨value, found⟩ := mem_names_iff.mp defined
  by_cases same : other = name
  · rw [same, found]
    rfl
  · rw [zeroed, if_neg (fun member => same (List.mem_singleton.mp member)), Option.or_none]

theorem or_zeroed_of_fresh (fresh : name ∉ v.names) (other : String) :
    (v.get? other).or (zeroed [name] other) = if other = name then some 0 else v.get? other := by
  unfold zeroed
  simp only [List.mem_singleton]
  split
  · rename_i same
    rw [same, get?_eq_none_iff.mpr fresh]
    rfl
  · rw [Option.or_none]

theorem get?_declare (other : String) : (v.declare name).1.get? other = (v.get? other).or (zeroed [name] other) := by
  unfold declare
  split
  · rename_i fresh
    rw [or_zeroed_of_fresh fresh]
    exact get?_define v name 0 fresh other
  · rename_i defined
    exact (or_zeroed_of_defined (Decidable.not_not.mp defined) other).symm

end Valuation

namespace Model

variable {m after : Model}

/-- Declarations fill in zeros and leave all values that are there. -/
theorem declare_get? (names : List String) (other : String) :
    (m.declare names).1.valuation.get? other = (m.valuation.get? other).or (zeroed names other) := by
  induction names generalizing m with
  | nil => exact (Option.or_none).symm
  | cons name names ih =>
    have rest := @ih { m with valuation := (m.valuation.declare name).1 }
    rw [Valuation.get?_declare, Option.or_assoc, ← zeroed_append] at rest
    exact rest

theorem declare_settings (names : List String) : (m.declare names).1.settings = m.settings := by
  induction names generalizing m with
  | nil => rfl
  | cons name names ih => exact ih

theorem ode_settings (symbol : String) (equation : Expr) : (m.ode symbol equation).1.settings = m.settings := by
  unfold ode
  split <;> rfl

theorem ode_get? (symbol : String) (equation : Expr) (other : String) :
    (m.ode symbol equation).1.valuation.get? other = (m.valuation.get? other).or (zeroed [symbol] other) := by
  unfold ode
  split
  · rename_i contained
    exact (Valuation.or_zeroed_of_defined (Valuation.contains_iff.mp contained) other).symm
  · rename_i missing
    rw [Valuation.or_zeroed_of_fresh fun defined => missing (Valuation.contains_iff.mpr defined)]
    exact Valuation.get?_set ..

/-- The model after some calls, up to the first whose text is no expression. -/
def setUp (m : Model) : List Call → Except ParseError Model
  | [] => .ok m
  | .initial symbol value :: calls => (m.initial symbol value).setUp calls
  | .ode symbol text :: calls =>
    match m.parse text with
    | .error fault => .error fault
    | .ok (expr, m, _) => (m.ode symbol expr).1.setUp calls

/-- A model that was given initial values and equations: a name has its initial value, else the
value that it had before, else zero if an equation mentions it. -/
structure Prepared (m : Model) (initials : List (String × Float)) (odes : List Ode) (after : Model) : Prop where
  settings : after.settings = m.settings
  system : after.system = odes.foldl (fun system ode => system.insert ode.symbol ode.equation) m.system
  values : ∀ name, after.valuation.get? name =
    (initials.lookup name).or ((m.valuation.get? name).or (zeroed (odes.flatMap Ode.names) name))

namespace Prepared

variable {initials : List (String × Float)} {odes : List Ode} {symbol : String}

/-- What is prepared from here on, without a value for the symbol, leaves it the initial value that it has been given.
-/
theorem initial {value : Float} (fresh : symbol ∉ initials.map Prod.fst)
    (prepared : (m.initial symbol value).Prepared initials odes after) :
    m.Prepared ((symbol, value) :: initials) odes after where
  settings := prepared.settings
  system := prepared.system
  values name := by
    have start : (m.initial symbol value).valuation.get? name = _ := Valuation.get?_set ..
    rw [prepared.values, start]
    by_cases same : name = symbol
    · rw [same, Valuation.lookup_eq_none.mpr fresh, if_pos rfl, List.lookup_cons_self]
      rfl
    · rw [if_neg same, List.lookup_cons, beq_false_of_ne same]

/-- To register one equation more is to set its symbol and its variables to zero, unless they have or get a value
otherwise. -/
theorem ode {expr : Expr} (prepared : ((m.declare expr.symbols).1.ode symbol expr).1.Prepared initials odes after) :
    m.Prepared initials (⟨symbol, expr⟩ :: odes) after where
  settings := by rw [prepared.settings, ode_settings, declare_settings]
  system := by
    rw [prepared.system, ode_system, declare_system]
    rfl
  values name := by
    rw [prepared.values, ode_get?, declare_get?, List.flatMap_cons, Ode.names, zeroed_append, zeroed_append]
    simp only [Option.or_assoc]

end Prepared

theorem setUp_of_read {calls : List Call} {odes : List Ode}
    (read : readOdes (calls.filterMap Call.equation?) = .ok odes) : ∃ after, m.setUp calls = .ok after := by
  induction calls generalizing m odes with
  | nil => exact ⟨m, rfl⟩
  | cons call calls ih =>
    cases call with
    | initial symbol value => exact ih read
    | ode symbol text =>
      obtain ⟨expr, others, parsed, rest, _⟩ := readOdes_cons read
      simp only [setUp, parse, parsed]
      exact ih rest

/-- What calls make of a model can be told from their initial values and their equations, wherever the
former stand among the latter. -/
theorem setUp_prepared {calls : List Call} {odes : List Ode} (done : m.setUp calls = .ok after)
    (read : readOdes (calls.filterMap Call.equation?) = .ok odes)
    (distinct : ((calls.filterMap Call.initial?).map Prod.fst).Nodup) :
    m.Prepared (calls.filterMap Call.initial?) odes after := by
  induction calls generalizing m odes with
  | nil =>
    cases done
    cases read
    exact ⟨rfl, rfl, fun name => (Option.or_none).symm⟩
  | cons call calls ih =>
    cases call with
    | initial symbol value =>
      obtain ⟨fresh, distinct⟩ := List.nodup_cons.mp distinct
      exact (ih done read distinct).initial fresh
    | ode symbol text =>
      obtain ⟨expr, others, parsed, rest, rfl⟩ := readOdes_cons read
      simp only [setUp, parse, parsed] at done
      exact (ih done rest distinct).ode

/-- Models that no run can tell apart. -/
structure Alike (m n : Model) : Prop where
  settings : m.settings = n.settings
  system : m.system = n.system
  values : m.valuation.Agree (fun _ => True) n.valuation

/-- Nothing else is told about the prepared model, so any two of them are alike. -/
theorem Prepared.alike {initials others : List (String × Float)} {odes : List Ode} {n : Model}
    (prepared : m.Prepared initials odes after) (other : m.Prepared others odes n) (perm : initials.Perm others)
    (distinct : (initials.map Prod.fst).Nodup) : after.Alike n where
  settings := prepared.settings.trans other.settings.symm
  system := prepared.system.trans other.system.symm
  values name _ := by rw [prepared.values, other.values, Valuation.lookup_perm perm distinct]

/-- The names are defined in another order, perhaps, but no run asks for the order. -/
theorem Alike.run {m n : Model} (alike : m.Alike n) {σ : Type} [Receiver σ] (receiver : σ) :
    (m.run receiver).2.receiver = (n.run receiver).2.receiver ∧
      (m.run receiver).2.result = (n.run receiver).2.result := by
  have within : ∀ ode ∈ m.system.entries, ode.Within fun _ => True := fun ode _ => ode.within_all
  obtain ⟨received, result, _⟩ := Integrator.run_agree (.euler m.settings) within trivial alike.values receiver
  unfold Model.run
  rw [← alike.settings, ← alike.system]
  exact ⟨received, result⟩

end Model

end EulerFlow
