import EulerFlow.Proofs.SetUp
import Mathlib.Data.Finset.Card
import Mathlib.Data.Finset.Dedup

namespace EulerFlow.Valuation

/-- What can be asked of a valuation. -/
inductive Request where
  | set (name : String) (value : Float)
  | declare (name : String)
  | add (name : String) (delta : Float)
  | setTime (t : Float)
  | get (name : String)
  | contains (name : String)
  | time
  | size
  | isEmpty

/-- What a valuation answers. -/
inductive Reply where
  | done
  | flag (holds : Bool)
  | value (found : Except EvalError Float)
  | count (n : Nat)

/-- The valuation after a request, and its reply. A reading changes nothing, and neither does what fails. -/
def answer (v : Valuation) : Request → Valuation × Reply
  | .set name value => (v.set name value, .done)
  | .declare name => ((v.declare name).1, .flag (v.declare name).2)
  | .add name delta =>
    match v.add name delta with
    | .error fault => (v, .value (.error fault))
    | .ok (w, value) => (w, .value (.ok value))
  | .setTime t => (v.setTime t, .done)
  | .get name => (v, .value (v.get name))
  | .contains name => (v, .flag (v.contains name))
  | .time => (v, .value (.ok v.time))
  | .size => (v, .count v.size)
  | .isEmpty => (v, .flag v.isEmpty)

/-- The valuation after requests in order, from the start. -/
def after (history : List Request) : Valuation :=
  history.foldl (fun v request => (v.answer request).1) initial

namespace Request

/-- The name that a request defines, if it is not defined yet. -/
def given? : Request → Option String
  | .set name _ => some name
  | .declare name => some name
  | _ => none

/-- The only name whose value a request may change. -/
def target? : Request → Option String
  | .set name _ => some name
  | .declare name => some name
  | .add name _ => some name
  | .setTime _ => some clock
  | _ => none

/-- The value that a request gives a name, whatever it was before. -/
def written? (name : String) : Request → Option Float
  | .set other value => if name = other then some value else none
  | .setTime t => if name = clock then some t else none
  | _ => none

/-- What a request adds to the value of a name, if it is defined. -/
def delta? (name : String) : Request → Option Float
  | .add other delta => if name = other then some delta else none
  | _ => none

end Request

/-- A value and what is added to it, in order. -/
def total (name : String) (base : Float) (since : List Request) : Float :=
  (since.filterMap (Request.delta? name)).foldl (· + ·) base

/-- The names that are defined at the start or by one of the requests. -/
def given (history : List Request) : List String :=
  clock :: history.filterMap Request.given?

/-- What the value of a name starts from and the requests that are behind: the value that was written last, or, if none
was, the zero of its definition. -/
inductive Since (name : String) (history : List Request) : Float → List Request → Prop where
  | written {before since : List Request} {request : Request} {value : Float}
      (whole : history = before ++ request :: since) (writes : request.written? name = some value)
      (last : ∀ later ∈ since, later.written? name = none) : Since name history value since
  | declared {before since : List Request} (whole : history = before ++ .declare name :: since)
      (fresh : name ∉ given before) (unwritten : ∀ later ∈ since, later.written? name = none) :
      Since name history 0 since
  | initially (isClock : name = clock) (unwritten : ∀ request ∈ history, request.written? name = none) :
      Since name history 0 history

variable {v : Valuation} {history : List Request} {request : Request} {name : String} {x : Float}

theorem after_concat (history : List Request) (request : Request) :
    after (history ++ [request]) = ((after history).answer request).1 :=
  List.foldl_concat ..

theorem total_concat (name : String) (base : Float) (since : List Request) (request : Request) :
    total name base (since ++ [request]) = total name (total name base since) [request] := by
  rw [total, List.filterMap_append, List.foldl_append]
  rfl

theorem mem_given_concat : name ∈ given (history ++ [request]) ↔ request.given? = some name ∨ name ∈ given history := by
  simp [given, List.filterMap_append, or_comm, or_left_comm]

theorem answer_add_undefined (undefined : name ∉ v.names) (delta : Float) :
    v.answer (.add name delta) = (v, .value (.error (.undefinedVariable name))) := by
  rw [answer, add_undefined undefined]

theorem answer_add_defined (found : v.get? name = some x) (delta : Float) :
    v.answer (.add name delta) = (v.set name (x + delta), .value (.ok (x + delta))) := by
  rw [answer, add_eq found]

theorem answer_declare_defined (defined : name ∈ v.names) : v.answer (.declare name) = (v, .flag false) := by
  rw [answer, declare, dif_neg (not_not.mpr defined)]

theorem answer_declare_new (fresh : name ∉ v.names) : (v.answer (.declare name)).2 = .flag true := by
  rw [answer, declare, dif_pos fresh]

/-- A name that is not the target of a request keeps its value, or stays undefined. -/
theorem get?_answer_other (v : Valuation) (other : request.target? ≠ some name) :
    (v.answer request).1.get? name = v.get? name := by
  cases request with
  | set target value =>
    rw [answer, get?_set, if_neg fun same => other (congrArg some same.symm)]
  | declare target =>
    have apart : name ∉ [target] := fun same => other (congrArg some (List.mem_singleton.mp same).symm)
    rw [answer, get?_declare, zeroed, if_neg apart, Option.or_none]
  | add target delta =>
    cases found : v.get? target with
    | none => rw [answer_add_undefined (get?_eq_none_iff.mp found)]
    | some value =>
      rw [answer_add_defined found, get?_set, if_neg fun same => other (congrArg some same.symm)]
  | setTime t =>
    rw [answer, get?_setTime, if_neg fun same => other (congrArg some same.symm)]
  | _ => rfl

theorem get?_answer_written (v : Valuation) (writes : request.written? name = some x) :
    (v.answer request).1.get? name = some x := by
  cases request with
  | set target value =>
    simp only [Request.written?, Option.ite_none_right_eq_some] at writes
    rw [answer, get?_set, if_pos writes.1, writes.2]
  | setTime t =>
    simp only [Request.written?, Option.ite_none_right_eq_some] at writes
    rw [answer, get?_setTime, if_pos writes.1, writes.2]
  | _ => cases writes

/-- What does not write the value of a defined name adds to it, if it does anything to it. -/
theorem get?_answer_unwritten (found : v.get? name = some x) (unwritten : request.written? name = none) :
    (v.answer request).1.get? name = some (total name x [request]) := by
  cases request with
  | set target value =>
    simp only [Request.written?, ite_eq_right_iff, reduceCtorEq, imp_false] at unwritten
    rw [answer, get?_set, if_neg unwritten, found]
    rfl
  | declare target =>
    rw [answer, get?_declare, found]
    rfl
  | add target delta =>
    by_cases same : name = target
    · rw [answer_add_defined (same ▸ found), get?_set, if_pos same, total]
      simp [Request.delta?, same]
    · have other : (Request.add target delta).target? ≠ some name := fun here => same (Option.some.inj here).symm
      rw [get?_answer_other v other, found, total]
      simp [Request.delta?, same]
  | setTime t =>
    simp only [Request.written?, ite_eq_right_iff, reduceCtorEq, imp_false] at unwritten
    rw [answer, get?_setTime, if_neg unwritten, found]
    rfl
  | _ => exact found

theorem get?_answer_declare (undefined : v.get? name = none) : (v.answer (.declare name)).1.get? name = some 0 := by
  rw [answer, get?_declare, undefined, zeroed, if_pos (List.mem_singleton_self _), Option.none_or]

/-- A request defines the name that it gives, and takes the definition of no name back. -/
theorem mem_names_answer : name ∈ (v.answer request).1.names ↔ request.given? = some name ∨ name ∈ v.names := by
  cases request with
  | set target value => rw [answer, mem_names_set, Request.given?, Option.some.injEq, eq_comm]
  | declare target => rw [answer, mem_names_declare, Request.given?, Option.some.injEq, eq_comm]
  | add target delta =>
    cases found : v.get? target with
    | none => simp [answer_add_undefined (get?_eq_none_iff.mp found), Request.given?]
    | some value =>
      have defined : target ∈ v.names := mem_names_iff.mpr ⟨value, found⟩
      simp [answer_add_defined found, names_set defined, Request.given?]
  | setTime t => simp [answer, Request.given?]
  | _ => simp [answer, Request.given?]

theorem mem_names_after : name ∈ (after history).names ↔ name ∈ given history := by
  induction history using List.reverseRecOn with
  | nil => exact Iff.rfl
  | append_singleton history request ih => rw [after_concat, mem_names_answer, mem_given_concat, ih]

theorem size_eq_card (v : Valuation) : v.size = v.names.toFinset.card := by
  have distinct : v.names.Nodup := v.distinct
  rw [List.toFinset_card_of_nodup distinct, names, List.length_map, size]

theorem split_concat {before since : List Request} {first : Request}
    (whole : history ++ [request] = before ++ first :: since) :
    (first = request ∧ before = history ∧ since = []) ∨
      ∃ earlier, since = earlier ++ [request] ∧ history = before ++ first :: earlier := by
  cases since using List.reverseRecOn with
  | nil =>
    obtain ⟨same, only⟩ := List.append_inj' whole rfl
    exact .inl ⟨(List.singleton_inj.mp only).symm, same.symm, rfl⟩
  | append_singleton earlier last =>
    rw [← List.cons_append, ← List.append_assoc] at whole
    obtain ⟨same, only⟩ := List.append_inj' whole rfl
    exact .inr ⟨earlier, by rw [List.singleton_inj.mp only], same⟩

variable {base : Float} {since : List Request}

theorem get?_initial (name : String) : initial.get? name = if name = clock then some 0 else none := by
  change [(clock, (0 : Float))].lookup name = _
  by_cases same : name = clock
  · rw [same, List.lookup_cons_self, if_pos rfl]
  · rw [List.lookup_cons, beq_false_of_ne same, if_neg same, List.lookup_nil]

theorem since_nil (begins : Since name [] base since) : name = clock ∧ base = 0 ∧ since = [] := by
  obtain ⟨whole, _, _⟩ | ⟨whole, _, _⟩ | ⟨isClock, _⟩ := begins
  · simp at whole
  · simp at whole
  · exact ⟨isClock, rfl, rfl⟩

/-- A value that has just been written has no past. -/
theorem since_concat_written (writes : request.written? name = some x) :
    Since name (history ++ [request]) base since ↔ base = x ∧ since = [] := by
  have written : ¬ request.written? name = none := by simp [writes]
  constructor
  · rintro (⟨whole, first, last⟩ | ⟨whole, fresh, unwritten⟩ | ⟨isClock, unwritten⟩)
    · obtain ⟨rfl, _, rfl⟩ | ⟨earlier, rfl, _⟩ := split_concat whole
      · exact ⟨Option.some.inj (first.symm.trans writes), rfl⟩
      · exact absurd (last request (by simp)) written
    · obtain ⟨rfl, _, rfl⟩ | ⟨earlier, rfl, _⟩ := split_concat whole
      · cases writes
      · exact absurd (unwritten request (by simp)) written
    · exact absurd (unwritten request (by simp)) written
  · rintro ⟨rfl, rfl⟩
    exact .written rfl writes nofun

/-- The past of a value that is not written grows at its end. It may also just have begun, with a first declaration.
-/
theorem since_concat_unwritten (unwritten : request.written? name = none) :
    Since name (history ++ [request]) base since ↔
      (∃ earlier, since = earlier ++ [request] ∧ Since name history base earlier) ∨
        request = .declare name ∧ name ∉ given history ∧ base = 0 ∧ since = [] := by
  have kept {earlier : List Request} (before : ∀ later ∈ earlier, later.written? name = none) :
      ∀ later ∈ earlier ++ [request], later.written? name = none :=
    List.forall_mem_append.mpr ⟨before, List.forall_mem_singleton.mpr unwritten⟩
  constructor
  · rintro (⟨whole, first, last⟩ | ⟨whole, fresh, later⟩ | ⟨isClock, later⟩)
    · obtain ⟨rfl, _, _⟩ | ⟨earlier, rfl, rest⟩ := split_concat whole
      · cases unwritten.symm.trans first
      · exact .inl ⟨earlier, rfl, .written rest first (List.forall_mem_append.mp last).1⟩
    · obtain ⟨rfl, rfl, rfl⟩ | ⟨earlier, rfl, rest⟩ := split_concat whole
      · exact .inr ⟨rfl, fresh, rfl, rfl⟩
      · exact .inl ⟨earlier, rfl, .declared rest fresh (List.forall_mem_append.mp later).1⟩
    · exact .inl ⟨history, rfl, .initially isClock (List.forall_mem_append.mp later).1⟩
  · rintro (⟨earlier, rfl, ⟨rfl, first, last⟩ | ⟨rfl, fresh, later⟩ | ⟨isClock, later⟩⟩ | ⟨rfl, fresh, rfl, rfl⟩)
    · exact .written (List.append_assoc ..) first (kept last)
    · exact .declared (List.append_assoc ..) fresh (kept later)
    · exact .initially isClock (kept later)
    · exact .declared rfl fresh nofun

/-- What defines a name without writing its value declares it. -/
theorem eq_declare (unwritten : request.written? name = none) (given : request.given? = some name) :
    request = .declare name := by
  cases request with
  | set target value =>
    cases given
    simp [Request.written?] at unwritten
  | declare target =>
    cases given
    rfl
  | _ => cases given

/-- The value of a name is what it starts from and all that was added since. -/
theorem get?_after : (after history).get? name = some x ↔
    ∃ base since, Since name history base since ∧ x = total name base since := by
  induction history using List.reverseRecOn generalizing x with
  | nil =>
    rw [show after [] = initial from rfl, get?_initial, Option.ite_none_right_eq_some, Option.some.injEq]
    constructor
    · rintro ⟨isClock, rfl⟩
      exact ⟨0, [], .initially isClock nofun, rfl⟩
    · rintro ⟨base, since, begins, rfl⟩
      obtain ⟨isClock, rfl, rfl⟩ := since_nil begins
      exact ⟨isClock, rfl⟩
  | append_singleton history request ih =>
    rw [after_concat]
    cases writes : request.written? name with
    | some value =>
      rw [get?_answer_written _ writes, Option.some.injEq]
      constructor
      · rintro rfl
        exact ⟨_, [], (since_concat_written writes).mpr ⟨rfl, rfl⟩, rfl⟩
      · rintro ⟨base, since, last, rfl⟩
        obtain ⟨rfl, rfl⟩ := (since_concat_written writes).mp last
        rfl
    | none =>
      cases found : (after history).get? name with
      | some y =>
        rw [get?_answer_unwritten found writes, Option.some.injEq]
        constructor
        · rintro rfl
          obtain ⟨base, since, last, rfl⟩ := ih.mp found
          exact ⟨base, since ++ [request], (since_concat_unwritten writes).mpr (.inl ⟨since, rfl, last⟩),
            (total_concat ..).symm⟩
        · rintro ⟨base, since, last, rfl⟩
          obtain ⟨earlier, rfl, before⟩ | ⟨_, fresh, _⟩ := (since_concat_unwritten writes).mp last
          · have same := ih.mpr ⟨base, earlier, before, rfl⟩
            rw [total_concat, Option.some.inj (found.symm.trans same)]
          · exact absurd (mem_names_after.mp (mem_names_iff.mpr ⟨y, found⟩)) fresh
      | none =>
        have fresh : name ∉ given history := mt mem_names_after.mpr (get?_eq_none_iff.mp found)
        have nothing {base : Float} {earlier : List Request} (before : Since name history base earlier) : False := by
          cases found.symm.trans (ih.mpr ⟨base, earlier, before, rfl⟩)
        constructor
        · intro value
          have defined := mem_names_answer.mp (mem_names_iff.mpr ⟨x, value⟩)
          have declares := eq_declare writes (defined.resolve_right (get?_eq_none_iff.mp found))
          rw [declares, get?_answer_declare found] at value
          refine ⟨0, [], (since_concat_unwritten writes).mpr (.inr ⟨declares, fresh, rfl, rfl⟩), ?_⟩
          exact (Option.some.inj value).symm
        · rintro ⟨base, since, last, rfl⟩
          obtain ⟨earlier, _, before⟩ | ⟨rfl, _, rfl, rfl⟩ := (since_concat_unwritten writes).mp last
          · exact (nothing before).elim
          · exact get?_answer_declare found

theorem mem_given_iff : name ∈ given history ↔
    name = clock ∨ (∃ value, .set name value ∈ history) ∨ .declare name ∈ history := by
  rw [given, List.mem_cons, List.mem_filterMap]
  refine or_congr_right ⟨?_, ?_⟩
  · rintro ⟨request, member, gives⟩
    cases request with
    | set target value =>
      cases gives
      exact .inl ⟨value, member⟩
    | declare target =>
      cases gives
      exact .inr member
    | _ => cases gives
  · rintro (⟨value, member⟩ | member)
    · exact ⟨_, member, rfl⟩
    · exact ⟨_, member, rfl⟩

theorem answer_add_fails_iff {delta : Float} :
    v.answer (.add name delta) = (v, .value (.error (.undefinedVariable name))) ↔ name ∉ v.names := by
  refine ⟨fun failed => ?_, fun undefined => answer_add_undefined undefined delta⟩
  rw [← get?_eq_none_iff]
  cases found : v.get? name with
  | none => rfl
  | some x =>
    rw [answer_add_defined found] at failed
    cases congrArg Prod.snd failed

theorem answer_declare_idle_iff : v.answer (.declare name) = (v, .flag false) ↔ name ∈ v.names := by
  refine ⟨fun idle => not_not.mp fun fresh => ?_, answer_declare_defined⟩
  have new := answer_declare_new fresh
  rw [idle] at new
  cases new

/-- A valuation is what the requests since the start have made of it. The clock is always defined, and so is what was
set or declared, and nothing else. A value is the one that was written last and all that was added since, in order; with
nothing written it counts from zero, at the start for the clock and from the first declaration for any other name. Of
the next request this says: to add to an undefined name fails, to declare a defined one answers that it was not new,
and neither changes anything; and no request changes the value of a name that it is not about. -/
theorem valuation_follows_history (history : List Request) :
    let v := after history
    (v.contains clock = true ∧ v.isEmpty = false ∧ v.get? clock = some v.time) ∧
      (∀ name, v.contains name = true ↔
        name = clock ∨ (∃ value, .set name value ∈ history) ∨ .declare name ∈ history) ∧
      (∀ name x, v.get? name = some x ↔ ∃ base since, Since name history base since ∧ x = total name base since) ∧
      (∃ defined : Finset String, (∀ name, name ∈ defined ↔ v.contains name = true) ∧ v.size = defined.card) ∧
      (∀ name delta, v.answer (.add name delta) = (v, .value (.error (.undefinedVariable name))) ↔
        ¬ v.contains name = true) ∧
      (∀ name, v.answer (.declare name) = (v, .flag false) ↔ v.contains name = true) ∧
      ∀ request name, request.target? ≠ some name → (v.answer request).1.get? name = v.get? name := by
  intro v
  refine ⟨⟨contains_iff.mpr v.clock_mem, ?_, v.get?_clock⟩, fun name => ?_, fun name x => get?_after,
    ⟨v.names.toFinset, fun name => ?_, v.size_eq_card⟩, fun name delta => ?_, fun name => ?_,
    fun request name other => v.get?_answer_other other⟩
  · rw [isEmpty, List.isEmpty_eq_false_iff]
    intro none
    have defined := v.clock_mem
    rw [names, none] at defined
    cases defined
  · rw [contains_iff, mem_names_after, mem_given_iff]
  · rw [contains_iff, List.mem_toFinset]
  · rw [contains_iff, answer_add_fails_iff]
  · rw [contains_iff, answer_declare_idle_iff]

/-- What is added before a declaration is lost, and what is added before a value is set is written over. -/
example : let v := after [.add "x" 1, .declare "x", .add "x" 2, .add "t" 3, .set "y" 5, .add "y" 1, .set "y" 4, .add "y" 1]
    v.get? "x" = some 2 ∧ v.time = 3 ∧ v.get? "y" = some 5 ∧ v.size = 3 := by
  decide +kernel

end EulerFlow.Valuation
