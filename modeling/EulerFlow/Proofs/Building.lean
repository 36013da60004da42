import EulerFlow.Proofs.Session

namespace EulerFlow

/-- A call that builds a model. -/
inductive BuildStep where
  | mention (name : String)
  | parse (text : String)
  | ode (symbol : String) (equation : Expr)
  | initial (symbol : String) (value : Float)

namespace BuildStep

/-- The name occurs in what the call was given, if that could be read. -/
def Gives (step : BuildStep) (name : String) : Prop :=
  match step with
  | .mention mentioned => name = mentioned
  | .parse text => ∃ expr, Expr.parse text = .ok expr ∧ name ∈ expr.symbols
  | .ode symbol _ => name = symbol
  | .initial symbol _ => name = symbol

/-- Names that the call sets to zero where they have no value yet. -/
def zeroes : BuildStep → List String
  | .mention name => [name]
  | .parse text =>
    match Expr.parse text with
    | .error _ => []
    | .ok expr => expr.symbols
  | .ode symbol _ => [symbol]
  | .initial _ _ => []

/-- The initial value that the call gives, if it gives one. -/
def initial? : BuildStep → Option (String × Float)
  | .initial symbol value => some (symbol, value)
  | _ => none

/-- The equation that the call registers, if it registers one. -/
def ode? : BuildStep → Option Ode
  | .ode symbol equation => some ⟨symbol, equation⟩
  | _ => none

/-- Whether the call does nothing but declare names. -/
def declares : BuildStep → Bool
  | .mention _ => true
  | .parse _ => true
  | _ => false

end BuildStep

/-- The values that a name is given, in order. -/
def initialsOf (name : String) (steps : List BuildStep) : List Float :=
  ((steps.filterMap BuildStep.initial?).filter fun entry => entry.1 = name).map Prod.snd

theorem initialsOf_cons (name : String) (step : BuildStep) (steps : List BuildStep) :
    initialsOf name (step :: steps) = initialsOf name [step] ++ initialsOf name steps := by
  rw [← List.singleton_append, initialsOf, List.filterMap_append, List.filter_append, List.map_append]
  rfl

theorem initialsOf_initial (name symbol : String) (value : Float) :
    initialsOf name [.initial symbol value] = if name = symbol then [value] else [] := by
  by_cases same : name = symbol
  · simp [initialsOf, BuildStep.initial?, same]
  · simp [initialsOf, BuildStep.initial?, same, Ne.symm same]

/-- Two orders of the same calls: equations stay in order, and so do the values that one name is given. -/
structure Interleaves (steps others : List BuildStep) : Prop where
  odes : steps.filterMap BuildStep.ode? = others.filterMap BuildStep.ode?
  initials : ∀ name, initialsOf name steps = initialsOf name others
  declared : (steps.filter BuildStep.declares).Perm (others.filter BuildStep.declares)

namespace Model

/-- The model after one call. A text that cannot be read changes nothing. -/
def take (m : Model) : BuildStep → Model
  | .mention name => (m.mention name).2.1
  | .parse text => (m.reading text).1
  | .ode symbol equation => (m.ode symbol equation).1
  | .initial symbol value => m.initial symbol value

/-- The model after some calls in order. -/
def assemble (m : Model) (steps : List BuildStep) : Model :=
  steps.foldl take m

variable {m : Model}

theorem take_settings (step : BuildStep) : (m.take step).settings = m.settings := by
  cases step with
  | mention name => exact declare_settings [name]
  | parse text =>
    cases read : Expr.parse text with
    | error fault => rw [take, reading_error read]
    | ok expr => rw [take, reading_ok read, declare_settings]
  | ode symbol equation => exact ode_settings symbol equation
  | initial symbol value => rfl

/-- Only the registration of an equation changes the system. -/
theorem take_system (step : BuildStep) :
    (m.take step).system = step.ode?.toList.foldl (fun system ode => system.insert ode.symbol ode.equation) m.system := by
  cases step with
  | mention name => exact declare_system [name]
  | parse text =>
    cases read : Expr.parse text with
    | error fault =>
      rw [take, reading_error read]
      rfl
    | ok expr =>
      rw [take, reading_ok read, declare_system]
      rfl
  | ode symbol equation => exact ode_system symbol equation
  | initial symbol value => rfl

/-- Each call gives a name the value that it sets, leaves it the value that it has, or starts it at zero. -/
theorem take_get? (step : BuildStep) (name : String) :
    (m.take step).valuation.get? name =
      (initialsOf name [step]).getLast?.or ((m.valuation.get? name).or (zeroed step.zeroes name)) := by
  cases step with
  | mention other => exact declare_get? [other] name
  | parse text =>
    cases read : Expr.parse text with
    | error fault =>
      rw [take, reading_error read, BuildStep.zeroes, read]
      exact (Option.or_none).symm
    | ok expr =>
      rw [take, reading_ok read, BuildStep.zeroes, read]
      exact declare_get? expr.symbols name
  | ode symbol equation => exact ode_get? symbol equation name
  | initial symbol value =>
    have written : (m.initial symbol value).valuation.get? name = _ := Valuation.get?_set ..
    rw [take, written, BuildStep.zeroes, zeroed, if_neg List.not_mem_nil, Option.or_none]
    by_cases same : name = symbol
    · rw [if_pos same, same, initialsOf_initial, if_pos rfl]
      rfl
    · rw [if_neg same, initialsOf_initial, if_neg same]
      rfl

theorem assemble_settings (steps : List BuildStep) : (m.assemble steps).settings = m.settings := by
  induction steps generalizing m with
  | nil => rfl
  | cons step steps ih => exact ih.trans (m.take_settings step)

/-- The system is that of the equations alone, in the order in which they came. -/
theorem assemble_system (steps : List BuildStep) :
    (m.assemble steps).system =
      (steps.filterMap BuildStep.ode?).foldl (fun system ode => system.insert ode.symbol ode.equation) m.system := by
  induction steps generalizing m with
  | nil => rfl
  | cons step steps ih =>
    refine ih.trans ?_
    rw [take_system, List.filterMap_cons]
    cases step.ode? <;> rfl

/-- After any calls a name has the last value that it was given, or that from before, or zero if it was named. -/
theorem assemble_get? (steps : List BuildStep) (name : String) :
    (m.assemble steps).valuation.get? name =
      (initialsOf name steps).getLast?.or ((m.valuation.get? name).or (zeroed (steps.flatMap BuildStep.zeroes) name)) := by
  induction steps generalizing m with
  | nil => exact (Option.or_none).symm
  | cons step steps ih =>
    refine ih.trans ?_
    rw [take_get?, initialsOf_cons name step steps, List.getLast?_append, List.flatMap_cons, zeroed_append]
    simp only [Option.or_assoc]

theorem built_get? (settings : Settings) (steps : List BuildStep) (name : String) :
    ((Model.new settings).assemble steps).valuation.get? name =
      (initialsOf name steps).getLast?.or (zeroed (clock :: steps.flatMap BuildStep.zeroes) name) := by
  have fresh : (Model.new settings).valuation.get? name = zeroed [clock] name := by
    change [(clock, (0 : Float))].lookup name = _
    unfold zeroed
    by_cases same : name = clock
    · rw [same, List.lookup_cons_self, if_pos (List.mem_singleton_self _)]
    · rw [List.lookup_cons, beq_false_of_ne same, if_neg (fun member => same (List.mem_singleton.mp member))]
      rfl
  rw [assemble_get?, fresh, ← zeroed_append]
  rfl

end Model

theorem BuildStep.gives_iff {step : BuildStep} {name : String} :
    step.Gives name ↔ initialsOf name [step] ≠ [] ∨ name ∈ step.zeroes := by
  cases step with
  | mention other => simp [Gives, zeroes, initialsOf, initial?]
  | parse text => cases read : Expr.parse text <;> simp [Gives, zeroes, initialsOf, initial?, read]
  | ode symbol equation => simp [Gives, zeroes, initialsOf, initial?]
  | initial symbol value => simp [Gives, zeroes, initialsOf_initial]

variable {steps others : List BuildStep} {name : String}

theorem exists_gives_iff :
    (∃ step ∈ steps, step.Gives name) ↔ initialsOf name steps ≠ [] ∨ name ∈ steps.flatMap BuildStep.zeroes := by
  induction steps with
  | nil => simp [initialsOf]
  | cons step steps ih =>
    rw [List.exists_mem_cons_iff, ih, BuildStep.gives_iff, initialsOf_cons name step steps, List.flatMap_cons,
      List.mem_append, ne_eq, ne_eq, ne_eq, List.append_eq_nil_iff, not_and_or]
    exact or_or_or_comm ..

/-- Names come from declarations and from equations. -/
theorem mem_zeroes_iff :
    name ∈ steps.flatMap BuildStep.zeroes ↔
      (∃ step ∈ steps.filter BuildStep.declares, name ∈ step.zeroes) ∨
        name ∈ (steps.filterMap BuildStep.ode?).map Ode.symbol := by
  induction steps with
  | nil => simp
  | cons step steps ih =>
    rw [List.flatMap_cons, List.mem_append, ih]
    cases step with
    | mention | parse =>
      rw [List.filter_cons_of_pos rfl, List.exists_mem_cons_iff, or_assoc]
      rfl
    | ode symbol equation =>
      have silent : ¬ BuildStep.declares (.ode symbol equation) = true := Bool.false_ne_true
      have here : BuildStep.ode? (.ode symbol equation) = some ⟨symbol, equation⟩ := rfl
      rw [List.filter_cons_of_neg silent, List.filterMap_cons_some here, List.map_cons, List.mem_cons]
      exact (or_congr_left List.mem_singleton).trans or_left_comm
    | initial symbol value =>
      have silent : ¬ BuildStep.declares (.initial symbol value) = true := Bool.false_ne_true
      have none : BuildStep.ode? (.initial symbol value) = none := rfl
      rw [List.filter_cons_of_neg silent, List.filterMap_cons_none none]
      exact or_iff_right List.not_mem_nil

/-- In another order the same names are set to zero. -/
theorem Interleaves.zeroes (interleaves : Interleaves steps others) (name : String) :
    name ∈ steps.flatMap BuildStep.zeroes ↔ name ∈ others.flatMap BuildStep.zeroes := by
  rw [mem_zeroes_iff, mem_zeroes_iff, interleaves.odes]
  simp only [interleaves.declared.mem_iff]

theorem zeroed_eq_none_iff {names : List String} : zeroed names name = none ↔ name ∉ names := by
  unfold zeroed
  split
  · rename_i here
    exact ⟨nofun, fun absent => absurd here absent⟩
  · rename_i absent
    exact ⟨fun _ => absent, fun _ => rfl⟩

namespace Valuation

theorem mem_iff_lookup {es : List (String × Float)} (distinct : (es.map Prod.fst).Nodup) {name : String} {value : Float} :
    (name, value) ∈ es ↔ es.lookup name = some value := by
  induction es with
  | nil => simp
  | cons e es ih =>
    obtain ⟨first, old⟩ := e
    obtain ⟨fresh, distinct⟩ := List.nodup_cons.mp distinct
    rw [List.mem_cons, List.lookup_cons]
    by_cases same : name = first
    · subst same
      have absent : (name, value) ∉ es := fun member => fresh (List.mem_map.mpr ⟨_, member, rfl⟩)
      simp [absent, eq_comm]
    · rw [beq_false_of_ne same, ih distinct]
      simp [same]

/-- A valuation is no more than the values of its names, but for the order in which they were defined. -/
theorem perm_of_get? {v w : Valuation} (values : ∀ name, v.get? name = w.get? name) : v.entries.Perm w.entries := by
  have distinct (v : Valuation) : v.entries.Nodup :=
    List.Pairwise.of_map Prod.fst (fun _ _ differs same => differs (congrArg Prod.fst same)) v.distinct
  refine (List.perm_ext_iff_of_nodup (distinct v) (distinct w)).mpr fun entry => ?_
  obtain ⟨name, value⟩ := entry
  rw [mem_iff_lookup v.distinct, mem_iff_lookup w.distinct]
  exact Eq.congr_left (values name)

end Valuation

/-- What building calls make of a new model depends on their order only where one value or one equation
replaces another. -/
theorem building_ignores_order (settings : Settings) (steps : List BuildStep) :
    let built := (Model.new settings).assemble steps
    built.settings = settings ∧
      built.system = (steps.filterMap BuildStep.ode?).foldl
        (fun system ode => system.insert ode.symbol ode.equation) .empty ∧
      (∀ name, (built.valuation.contains name = true ↔ name = clock ∨ ∃ step ∈ steps, step.Gives name) ∧
        (built.valuation.contains name = true →
          built.valuation.get? name = some ((initialsOf name steps).getLast?.getD 0))) ∧
      ∀ others, Interleaves steps others →
        let other := (Model.new settings).assemble others
        built.settings = other.settings ∧ built.system = other.system ∧
          built.valuation.entries.Perm other.valuation.entries := by
  intro built
  have values := Model.built_get? settings steps
  refine ⟨Model.assemble_settings steps, Model.assemble_system steps, fun name => ⟨?_, fun defined => ?_⟩, ?_⟩
  · have undefined : built.valuation.get? name = none ↔
        initialsOf name steps = [] ∧ name ∉ clock :: steps.flatMap BuildStep.zeroes := by
      rw [values, Option.or_eq_none_iff, List.getLast?_eq_none_iff, zeroed_eq_none_iff]
    rw [exists_gives_iff, Valuation.contains_iff, ← Decidable.not_not (p := name ∈ built.valuation.names),
      ← Valuation.get?_eq_none_iff, undefined, not_and_or, Decidable.not_not, List.mem_cons]
    exact or_left_comm
  · have named : built.valuation.get? name ≠ none := fun undefined =>
      Valuation.get?_eq_none_iff.mp undefined (Valuation.contains_iff.mp defined)
    rw [values] at named ⊢
    cases given : (initialsOf name steps).getLast? with
    | some value => rfl
    | none =>
      rw [given, Option.none_or, ne_eq, zeroed_eq_none_iff, Decidable.not_not] at named
      exact if_pos named
  · intro others interleaves other
    refine ⟨?_, ?_, Valuation.perm_of_get? fun name => ?_⟩
    · rw [Model.assemble_settings, Model.assemble_settings]
    · rw [Model.assemble_system, Model.assemble_system, interleaves.odes]
    · rw [values, Model.built_get? settings others, interleaves.initials]
      have named : name ∈ clock :: steps.flatMap BuildStep.zeroes ↔
          name ∈ clock :: others.flatMap BuildStep.zeroes := by
        rw [List.mem_cons, List.mem_cons, interleaves.zeroes]
      simp only [zeroed, named]

end EulerFlow
