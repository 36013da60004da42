import EulerFlow.Valuation

namespace EulerFlow.Valuation

theorem lookup_eq_none {es : List (String × Float)} {name : String} :
    es.lookup name = none ↔ name ∉ es.map Prod.fst := by
  simp only [List.lookup_eq_none_iff, bne_iff_ne, List.mem_map, not_exists, not_and]
  exact forall_congr' fun e => imp_congr_right fun _ => ne_comm

/-- Lists of entries with the same names differ in the values they give those names, if at all. -/
theorem entries_eq_of_lookup {es fs : List (String × Float)} (distinct : (es.map Prod.fst).Nodup)
    (names : es.map Prod.fst = fs.map Prod.fst) (values : ∀ name, es.lookup name = fs.lookup name) :
    es = fs := by
  induction es generalizing fs with
  | nil => simpa using names
  | cons e es ih =>
    obtain ⟨name, value⟩ := e
    cases fs with
    | nil => simp at names
    | cons f fs =>
      obtain ⟨other, value'⟩ := f
      simp only [List.map_cons, List.cons.injEq] at names
      obtain ⟨rfl, rest⟩ := names
      have first := values name
      simp only [List.lookup_cons_self, Option.some.injEq] at first
      cases first
      rw [List.map_cons, List.nodup_cons] at distinct
      have behind (other : String) : es.lookup other = fs.lookup other := by
        by_cases same : other = name
        · subst same
          rw [lookup_eq_none.mpr distinct.1, lookup_eq_none.mpr (rest ▸ distinct.1)]
        · simpa only [List.lookup_cons, beq_false_of_ne same] using values other
      rw [ih distinct.2 rest behind]

/-- Where no name occurs twice, the order of the entries does not matter. -/
theorem lookup_perm {es fs : List (String × Float)} (perm : es.Perm fs) (distinct : (es.map Prod.fst).Nodup)
    (name : String) : es.lookup name = fs.lookup name := by
  induction perm with
  | nil => rfl
  | cons e _ ih =>
    rw [List.lookup_cons, List.lookup_cons, ih (List.nodup_cons.mp distinct).2]
  | swap e f es =>
    obtain ⟨first, value⟩ := e
    obtain ⟨second, other⟩ := f
    have apart : second ≠ first := fun same => (List.nodup_cons.mp distinct).1 (same ▸ List.mem_cons_self ..)
    simp only [List.lookup_cons]
    by_cases here : name = second
    · rw [here, beq_self_eq_true, beq_false_of_ne apart]
    · rw [beq_false_of_ne here]
  | trans first _ ih ih' =>
    rw [ih distinct, ih' ((first.map Prod.fst).nodup_iff.mp distinct)]

theorem lookup_overwritten (es : List (String × Float)) (name : String) (value : Float) (other : String) :
    (es.map fun e => (e.1, if e.1 = name then value else e.2)).lookup other =
      if other = name then (es.lookup other).map fun _ => value else es.lookup other := by
  induction es with
  | nil => simp
  | cons e es ih =>
    obtain ⟨first, old⟩ := e
    by_cases here : other = first
    · subst here
      simp only [List.map_cons, List.lookup_cons_self]
      split <;> rfl
    · simpa only [List.map_cons, List.lookup_cons, beq_false_of_ne here] using ih

theorem get?_eq_none_iff {v : Valuation} {name : String} : v.get? name = none ↔ name ∉ v.names :=
  lookup_eq_none

theorem mem_names_iff {v : Valuation} {name : String} : name ∈ v.names ↔ ∃ value, v.get? name = some value := by
  rw [← Option.ne_none_iff_exists', ne_eq, get?_eq_none_iff, Decidable.not_not]

theorem contains_iff {v : Valuation} {name : String} : v.contains name = true ↔ name ∈ v.names := by
  simp [contains]

theorem clock_mem (v : Valuation) : clock ∈ v.names :=
  v.clocked

/-- A valuation is no more than its names, in their order, and their values. -/
theorem eq_of_get? {v w : Valuation} (names : v.names = w.names)
    (values : ∀ name, v.get? name = w.get? name) : v = w := by
  have entries := entries_eq_of_lookup v.distinct names values
  cases v
  cases w
  cases entries
  rfl

@[simp] theorem names_overwrite (v : Valuation) (name : String) (value : Float) :
    (v.overwrite name value).names = v.names := by
  simp [names, overwrite, Function.comp_def]

/-- A defined name is written in its place. -/
theorem get?_overwrite {v : Valuation} {name : String} (defined : name ∈ v.names) (value : Float)
    (other : String) :
    (v.overwrite name value).get? other = if other = name then some value else v.get? other := by
  have values : (v.overwrite name value).get? other =
      if other = name then (v.get? other).map fun _ => value else v.get? other :=
    lookup_overwritten v.entries name value other
  obtain ⟨old, found⟩ := mem_names_iff.mp defined
  rw [values]
  split
  · rename_i same
    rw [same, found, Option.map_some]
  · rfl

theorem names_define (v : Valuation) (name : String) (value : Float) (fresh : name ∉ v.names) :
    (v.define name value fresh).names = v.names ++ [name] := by
  simp [names, define]

/-- A new name comes last and hides no other. -/
theorem get?_define (v : Valuation) (name : String) (value : Float) (fresh : name ∉ v.names)
    (other : String) :
    (v.define name value fresh).get? other = if other = name then some value else v.get? other := by
  have absent := get?_eq_none_iff.mpr fresh
  simp only [get?, define, List.lookup_append] at absent ⊢
  split
  · rename_i same
    rw [same, absent, List.lookup_cons_self, Option.none_or]
  · rename_i differs
    rw [List.lookup_cons, beq_false_of_ne differs, List.lookup_nil, Option.or_none]

theorem set_eq_overwrite {v : Valuation} {name : String} (defined : name ∈ v.names) (value : Float) :
    v.set name value = v.overwrite name value :=
  dif_neg (not_not_intro defined)

theorem names_set {v : Valuation} {name : String} (defined : name ∈ v.names) (value : Float) :
    (v.set name value).names = v.names := by
  rw [set_eq_overwrite defined, names_overwrite]

theorem mem_names_set {v : Valuation} {name other : String} {value : Float} :
    other ∈ (v.set name value).names ↔ other = name ∨ other ∈ v.names := by
  unfold set
  split
  · rw [names_define, List.mem_append, List.mem_singleton, or_comm]
  · rename_i defined
    rw [names_overwrite]
    exact ⟨Or.inr, Or.rec (fun same => same ▸ Decidable.not_not.mp defined) id⟩

theorem mem_names_declare {v : Valuation} {name other : String} :
    other ∈ (v.declare name).1.names ↔ other = name ∨ other ∈ v.names := by
  unfold declare
  split
  · rw [names_define, List.mem_append, List.mem_singleton, or_comm]
  · rename_i defined
    exact ⟨Or.inr, Or.rec (fun same => same ▸ Decidable.not_not.mp defined) id⟩

/-- Whether the name was defined before makes no difference to what is read afterwards. -/
theorem get?_set (v : Valuation) (name : String) (value : Float) (other : String) :
    (v.set name value).get? other = if other = name then some value else v.get? other := by
  unfold set
  split
  · exact get?_define v name value _ other
  · rename_i defined
    exact get?_overwrite (Decidable.not_not.mp defined) value other

@[simp] theorem names_setTime (v : Valuation) (t : Float) : (v.setTime t).names = v.names :=
  names_set v.clock_mem t

theorem get?_setTime (v : Valuation) (t : Float) (name : String) :
    (v.setTime t).get? name = if name = clock then some t else v.get? name :=
  get?_set v clock t name

/-- The clock always has a value, so the default in reading it never shows. -/
theorem get?_clock (v : Valuation) : v.get? clock = some v.time := by
  obtain ⟨t, found⟩ := mem_names_iff.mp v.clock_mem
  rw [time, found, Option.getD_some]

@[simp] theorem time_setTime (v : Valuation) (t : Float) : (v.setTime t).time = t := by
  have found := get?_setTime v t clock
  rw [if_pos rfl, get?_clock] at found
  exact Option.some.inj found

/-- Writing the time that the clock shows changes nothing. -/
@[simp] theorem setTime_time (v : Valuation) : v.setTime v.time = v := by
  refine eq_of_get? (names_setTime v v.time) fun name => ?_
  rw [get?_setTime]
  split
  · rename_i same
    rw [same, get?_clock]
  · rfl

@[simp] theorem setTime_setTime (v : Valuation) (s t : Float) : (v.setTime s).setTime t = v.setTime t := by
  refine eq_of_get? (by simp only [names_setTime]) fun name => ?_
  simp only [get?_setTime]
  split <;> rfl

/-- An addition is a reading and a writing of one defined name. -/
theorem add_eq {v : Valuation} {name : String} {value : Float} (found : v.get? name = some value)
    (delta : Float) : v.add name delta = .ok (v.set name (value + delta), value + delta) := by
  have defined : name ∈ v.names := mem_names_iff.mpr ⟨value, found⟩
  rw [set_eq_overwrite defined]
  unfold add
  rw [found]

/-- An addition defines nothing. -/
theorem add_undefined {v : Valuation} {name : String} (undefined : name ∉ v.names) (delta : Float) :
    v.add name delta = .error (.undefinedVariable name) := by
  unfold add
  rw [get?_eq_none_iff.mpr undefined]

end EulerFlow.Valuation
