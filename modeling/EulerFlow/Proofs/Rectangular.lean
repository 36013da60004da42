import EulerFlow.Proofs.Receivers

namespace EulerFlow

/-- A run to be made by an integrator, from some values on. -/
structure Experiment where
  integrator : Integrator
  system : OdeSystem
  valuation : Valuation

namespace Experiment

/-- The settings pass their check. -/
def Valid (e : Experiment) : Prop :=
  e.integrator.settings.fault? = none

/-- The run of the experiment into a receiver. -/
def into {σ : Type} [Receiver σ] (e : Experiment) (receiver : σ) : Run σ :=
  e.integrator.run e.system e.valuation receiver

/-- The values at the time at which row `j` is handed over, as a run leaves them that is refused this row. -/
def valuesAt (e : Experiment) (j : Nat) : Valuation :=
  (e.into (⟨Trajectory.empty, j + 1⟩ : Limited Trajectory)).valuation

/-- All that the run hands over. -/
def calls (e : Experiment) : List Delivery :=
  e.integrator.deliveries e.system e.valuation

variable {e : Experiment}

/-- Row `j` is handed over right after its step, with the clock not yet moved on. -/
theorem valuesAt_eq {k : Nat} (calls : e.calls = (e.integrator.orbit e.system e.valuation).deliveries k) {j : Nat}
    (within : j ≤ k) : e.valuesAt j = (e.integrator.orbit e.system e.valuation).state j := by
  obtain ⟨_, ends⟩ := Integrator.run_limited (fun _ _ => rfl) e.integrator e.system e.valuation Trajectory.empty (j + 1)
  have length : e.calls.length = k + 2 := by rw [calls, Orbit.deliveries_length]
  change e.integrator.Ends e.system e.valuation (e.into _) (min (j + 1) e.calls.length)
    (if j + 1 < e.calls.length then _ else _) at ends
  rw [length] at ends
  obtain ⟨_, values⟩ := ends.refused (if_pos (by omega))
  have count : min (j + 1) (k + 2) - 1 = j := by omega
  rwa [count] at values

/-- A run hands over its header and then rows only. Each of them shows the values at its time, in the places of their
symbols. -/
theorem calls_shown (valid : e.Valid) : ∃ rows : List (List Float),
    e.calls = .header (clock :: e.system.symbols) :: rows.map .row ∧ ∀ j row, rows[j]? = some row →
      row.length = e.system.dimension + 1 ∧
      ∀ i symbol, e.system.symbols[i]? = some symbol → row[i + 1]? = (e.valuesAt j).get? symbol := by
  cases filled : e.system.row e.valuation e.valuation.time with
  | error fault =>
    refine ⟨[], ?_, nofun⟩
    rw [calls, Integrator.deliveries, Integrator.run_eq, valid]
    simp only [filled]
    rfl
  | ok row =>
    have defined := OdeSystem.row_defined filled
    obtain ⟨k, _, reached⟩ := (e.integrator.run_outcome valid defined).last
    let orbit := e.integrator.orbit e.system e.valuation
    refine ⟨(List.range (k + 1)).map orbit.row, ?_, fun j row here => ?_⟩
    · rw [calls, reached, Orbit.deliveries, List.map_map]
      rfl
    · rw [List.getElem?_map, Option.map_eq_some_iff] at here
      obtain ⟨j', within, rfl⟩ := here
      obtain ⟨bound, same⟩ := List.getElem?_eq_some_iff.mp within
      rw [List.getElem_range] at same
      rw [List.length_range] at bound
      cases same
      refine ⟨Orbit.row_length defined j, fun i symbol here => ?_⟩
      have named : ∀ symbol ∈ e.system.symbols, symbol ∈ (orbit.state j).names := by
        rw [orbit.state_names]
        exact defined
      rw [valuesAt_eq reached (by omega), Orbit.row, List.getElem?_cons_succ]
      change (e.system.symbols.filterMap (orbit.state j).get?)[i]? = _
      rw [Valuation.filterMap_getElem? named, here]
      rfl

end Experiment

namespace Trajectory

/-- Every row has as many values as there are columns. -/
def Rectangular (table : Trajectory) : Prop :=
  ∀ row ∈ table.rows.toList, row.length = table.columns.length

variable {table : Trajectory} {name : String} {index : Nat}

theorem Rectangular.index_lt (rectangular : table.Rectangular)
    (found : table.columns.findIdx? (· = name) = some index) : ∀ row ∈ table.rows.toList, index < row.length := by
  obtain ⟨bound, _⟩ := List.findIdx?_eq_some_iff_getElem.mp found
  intro row member
  rw [rectangular row member]
  exact bound

theorem mapM_of_isSome {α β : Type} {f : α → Option β} {l : List α} (defined : ∀ x ∈ l, (f x).isSome) :
    ∃ values, l.mapM f = some values ∧ values.map some = l.map f := by
  induction l with
  | nil => exact ⟨[], rfl, rfl⟩
  | cons x l ih =>
    obtain ⟨first, others⟩ := List.forall_mem_cons.mp defined
    obtain ⟨y, here⟩ := Option.isSome_iff_exists.mp first
    obtain ⟨values, mapped, same⟩ := ih others
    exact ⟨y :: values, by simp [List.mapM_cons, here, mapped], by simp [here, same]⟩

theorem Rectangular.column?_found (rectangular : table.Rectangular)
    (found : table.columns.findIdx? (· = name) = some index) :
    ∃ values, table.column? name = some values ∧ values.map some = table.rows.toList.map (·[index]?) := by
  have defined : ∀ row ∈ table.rows.toList, (row[index]?).isSome := fun row member =>
    Option.isSome_iff_exists.mpr ⟨_, List.getElem?_eq_getElem (rectangular.index_lt found row member)⟩
  obtain ⟨values, read, same⟩ := mapM_of_isSome defined
  exact ⟨values, by rw [column?, found]; exact read, same⟩

theorem Rectangular.column?_eq_none_iff (rectangular : table.Rectangular) (name : String) :
    table.column? name = none ↔ name ∉ table.columns := by
  cases found : table.columns.findIdx? (· = name) with
  | none =>
    have absent : name ∉ table.columns := fun member => by
      simpa using List.findIdx?_eq_none_iff.mp found name member
    exact ⟨fun _ => absent, fun _ => by rw [column?, found]; rfl⟩
  | some index =>
    obtain ⟨values, read, _⟩ := rectangular.column?_found found
    obtain ⟨bound, here, _⟩ := List.findIdx?_eq_some_iff_getElem.mp found
    have member : name ∈ table.columns := of_decide_eq_true here ▸ List.getElem_mem bound
    rw [read]
    exact ⟨nofun, absurd member⟩

/-- The table after some runs into it, one after the other. -/
def collect (table : Trajectory) : List Experiment → Trajectory
  | [] => table
  | e :: others => (e.into table).receiver.collect others

end Trajectory

namespace Experiment

variable {e : Experiment}

theorem into_invalid (invalid : ¬e.Valid) (table : Trajectory) : (e.into table).receiver = table := by
  obtain ⟨fault, invalid⟩ := Option.ne_none_iff_exists'.mp invalid
  rw [into, Integrator.run_eq, invalid]
  rfl

theorem received {σ : Type} [Receiver σ] (accepting : Accepting σ) (e : Experiment) (receiver : σ) :
    (e.into receiver).receiver = deliverAll receiver e.calls :=
  (e.integrator.run_accepting accepting e.system e.valuation receiver).1

/-- The header of a run puts away what the table held before. -/
theorem into_calls {rows : List (List Float)} (calls : e.calls = .header (clock :: e.system.symbols) :: rows.map .row)
    (table : Trajectory) : (e.into table).receiver = ⟨clock :: e.system.symbols, rows.toArray⟩ := by
  rw [received (fun _ _ => rfl), calls, deliverAll, List.foldl_cons]
  refine (Trajectory.deliverAll_rows ⟨clock :: e.system.symbols, #[]⟩ rows).trans ?_
  simp

/-- What a run that got past its settings leaves in a table, whatever was there before. -/
structure Fills (e : Experiment) (table : Trajectory) : Prop where
  alone : table = (e.into Trajectory.empty).receiver
  columns : table.columns = clock :: e.system.symbols
  offered : table.deliveries = (e.into (⟨Trajectory.empty, []⟩ : Recorder Trajectory)).receiver.offered
  rectangular : table.Rectangular
  values : ∀ symbol ∈ e.system.symbols, symbol ≠ clock → ∃ values, table.column? symbol = some values ∧
    values.map some = (List.range table.rows.size).map fun j => (e.valuesAt j).get? symbol

theorem find_symbol {symbol : String} (member : symbol ∈ e.system.symbols) :
    ∃ i, e.system.symbols.findIdx? (· = symbol) = some i ∧ e.system.symbols[i]? = some symbol := by
  cases found : e.system.symbols.findIdx? (· = symbol) with
  | none => simpa using List.findIdx?_eq_none_iff.mp found symbol member
  | some i =>
    obtain ⟨bound, here, _⟩ := List.findIdx?_eq_some_iff_getElem.mp found
    exact ⟨i, rfl, (List.getElem?_eq_getElem bound).trans (congrArg some (of_decide_eq_true here))⟩

theorem fills (valid : e.Valid) (table : Trajectory) : e.Fills (e.into table).receiver := by
  obtain ⟨rows, calls, shown⟩ := e.calls_shown valid
  have rectangular : Trajectory.Rectangular ⟨clock :: e.system.symbols, rows.toArray⟩ := by
    intro row member
    obtain ⟨j, here⟩ := List.getElem?_of_mem member
    exact (shown j row here).1.trans (by simp [OdeSystem.dimension, OdeSystem.symbols])
  rw [into_calls calls]
  refine ⟨(into_calls calls _).symm, rfl, ?_, rectangular, fun symbol member other => ?_⟩
  · rw [received (fun _ _ => rfl), Recorder.deliverAll_offered, calls]
    rfl
  · -- the first column of that name is not the clock's, so it is at the place of the symbol
    obtain ⟨i, found, here⟩ := find_symbol member
    have column : (clock :: e.system.symbols).findIdx? (· = symbol) = some (i + 1) := by
      rw [List.findIdx?_cons, decide_eq_false other.symm, found]
      rfl
    obtain ⟨values, read, same⟩ := rectangular.column?_found column
    refine ⟨values, read, same.trans ?_⟩
    refine List.ext_getElem (by simp) fun j within _ => ?_
    rw [List.length_map] at within
    rw [List.getElem_map, List.getElem_map, List.getElem_range]
    exact (shown j _ (List.getElem?_eq_getElem within)).2 i symbol here

end Experiment

namespace Trajectory

/-- The last run that gets past its settings decides on the table; runs behind it do not touch it. -/
theorem collect_cases (start : Trajectory) (experiments : List Experiment) :
    ((∀ e ∈ experiments, ¬e.Valid) ∧ start.collect experiments = start) ∨
      ∃ earlier e later, experiments = earlier ++ e :: later ∧ e.Valid ∧ (∀ other ∈ later, ¬other.Valid) ∧
        e.Fills (start.collect experiments) := by
  -- on the runs, for all tables: what the first run leaves is where the others start
  induction experiments generalizing start with
  | nil => exact .inl ⟨List.forall_mem_nil _, rfl⟩
  | cons first experiments ih =>
    rcases ih (first.into start).receiver with ⟨invalid, same⟩ | ⟨earlier, e, later, rfl, others⟩
    · rw [collect, same]
      by_cases valid : first.Valid
      · exact .inr ⟨[], first, experiments, rfl, valid, invalid, first.fills valid start⟩
      · exact .inl ⟨List.forall_mem_cons.mpr ⟨valid, invalid⟩, Experiment.into_invalid valid start⟩
    · exact .inr ⟨first :: earlier, e, later, rfl, others⟩

end Trajectory

/-- Whatever runs were made into a table, it holds what the last of them that got past its settings has handed over, and
nothing else. All rows are as long as there are columns, so that no column is looked up beyond the end of a row, and the
column of a symbol shows the values that it had when the rows were handed over. -/
theorem collected_tables_rectangular (start : Trajectory) (experiments : List Experiment) :
    let table := start.collect experiments
    (start.Rectangular → table.Rectangular ∧
        ∀ name, (table.column? name = none ↔ name ∉ table.columns) ∧
          ∀ index, table.columns.findIdx? (· = name) = some index → ∀ row ∈ table.rows.toList, index < row.length) ∧
      (((∀ e ∈ experiments, ¬e.Valid) ∧ table = start) ∨
        ∃ earlier e later, experiments = earlier ++ e :: later ∧ e.Valid ∧ (∀ other ∈ later, ¬other.Valid) ∧
          e.Fills table) := by
  intro table
  have collected := start.collect_cases experiments
  refine ⟨fun rectangular => ?_, collected⟩
  have kept : table.Rectangular := by
    rcases collected with ⟨_, same⟩ | ⟨_, _, _, _, _, _, fills⟩
    · rwa [← same] at rectangular
    · exact fills.rectangular
  exact ⟨kept, fun name => ⟨kept.column?_eq_none_iff name, fun _ found => kept.index_lt found⟩⟩

end EulerFlow
