import EulerFlow.Proofs.Outcome
import EulerFlow.Proofs.TableText
import EulerFlow.Table.Limited

namespace EulerFlow

variable {σ : Type} [Receiver σ]

theorem offer_view {τ : Type} [Receiver τ] {view : τ → σ} (mirrors : Mirrors view) (receiver : τ)
    (ds : List Delivery) :
    offer (view receiver) ds = (view (offer receiver ds).1, (offer receiver ds).2) ∧
      taken (view receiver) ds = taken receiver ds := by
  induction ds generalizing receiver with
  | nil => exact ⟨rfl, rfl⟩
  | cons d ds ih =>
    have seen := mirrors receiver d
    rcases answer : Receiver.receive receiver d with ⟨after, _ | refusal⟩
    · rw [answer] at seen
      obtain ⟨offered, count⟩ := offer_accepted answer ds
      obtain ⟨offeredView, countView⟩ := offer_accepted seen ds
      rw [offered, count, offeredView, countView, (ih after).1, (ih after).2]
      exact ⟨rfl, rfl⟩
    · rw [answer] at seen
      obtain ⟨offered, count⟩ := offer_refused answer ds
      obtain ⟨offeredView, countView⟩ := offer_refused seen ds
      rw [offered, count, offeredView, countView]
      exact ⟨rfl, rfl⟩

theorem Recorder.deliverAll_offered (recorder : Recorder σ) (ds : List Delivery) :
    (deliverAll recorder ds).offered = recorder.offered ++ ds := by
  induction ds generalizing recorder with
  | nil => exact (List.append_nil _).symm
  | cons d ds ih => exact (ih _).trans (List.append_assoc ..)

namespace TextTable

/-- A table that refused nothing holds all its text. -/
theorem offer_whole {table : TextTable} {ds : List Delivery} (fits : table.overfull = false)
    (whole : (offer table ds).2 = none) :
    (offer table ds).1 = ⟨table.capacity, table.offered ++ render ds⟩ ∧ (offer table ds).1.overfull = false := by
  induction ds generalizing table with
  | nil =>
    refine ⟨?_, fits⟩
    change table = ⟨table.capacity, table.offered ++ ""⟩
    rw [String.append_empty]
  | cons d ds ih =>
    have received : Receiver.receive table d = _ := receive_of_fits fits d
    cases full : overfull ⟨table.capacity, table.offered ++ d.line⟩ with
    | true =>
      rw [full, if_pos rfl] at received
      rw [(offer_refused received ds).1] at whole
      cases whole
    | false =>
      rw [full, if_neg Bool.false_ne_true] at received
      rw [(offer_accepted received ds).1] at whole ⊢
      rw [render_cons, ← String.append_assoc]
      exact ih full whole

theorem kept_of_fits {table : TextTable} (fits : table.overfull = false) : table.kept = table.offered := by
  unfold kept
  split
  · rfl
  · rw [fits]
    rfl

theorem empty_written (capacity : Option Nat) : (empty capacity).written = ByteWriter.empty capacity := by
  ext1
  · rfl
  · change keep capacity (octets "") = []
    rw [octets_empty]
    exact (ByteWriter.empty capacity).fits

/-- What is written of a table, and the refusal if that is not all of it. -/
theorem offer_written (capacity : Option Nat) (ds : List Delivery) :
    (offer (empty capacity) ds).1.written.bytes = keep capacity (octets (render ds)) ∧
      (offer (empty capacity) ds).2 = refusal? capacity (octets (render ds)) := by
  have seen := (offer_view mirrors (empty capacity) ds).1
  rw [empty_written, ByteWriter.offer_render] at seen
  exact ⟨(congrArg (fun out => out.1.bytes) seen).symm, (congrArg Prod.snd seen).symm⟩

end TextTable

/-- A receiver behind a counter gets as many deliveries as the counter lets through. -/
theorem Limited.offer_eq (accepting : Accepting σ) (receiver : σ) (n : Nat) (ds : List Delivery) :
    (offer (⟨receiver, n⟩ : Limited σ) ds).1.receiver = deliverAll receiver (ds.take n) ∧
      (offer (⟨receiver, n⟩ : Limited σ) ds).2 = (if n < ds.length then some .sinkFull else none) ∧
      taken (⟨receiver, n⟩ : Limited σ) ds = min n ds.length := by
  induction ds generalizing receiver n with
  | nil => simp [offer, taken, deliverAll]
  | cons d ds ih =>
    cases n with
    | zero =>
      have answer : Receiver.receive (⟨receiver, 0⟩ : Limited σ) d = (⟨receiver, 0⟩, some .sinkFull) := rfl
      obtain ⟨offered, count⟩ := offer_refused answer ds
      rw [offered, count]
      exact ⟨rfl, (if_pos (Nat.succ_pos _)).symm, (Nat.zero_min _).symm⟩
    | succ n =>
      have answer : Receiver.receive (⟨receiver, n + 1⟩ : Limited σ) d =
          (⟨(Receiver.receive receiver d).1, n⟩, none) :=
        congrArg (Prod.mk _) (accepting receiver d)
      obtain ⟨offered, count⟩ := offer_accepted answer ds
      obtain ⟨received, refused, among⟩ := ih (Receiver.receive receiver d).1 n
      rw [offered, count, received, refused, among, List.take_succ_cons, List.length_cons, Nat.succ_min_succ]
      exact ⟨rfl, by simp only [Nat.succ_lt_succ_iff], rfl⟩

namespace Trajectory

/-- The calls that lead to a table. -/
def deliveries (table : Trajectory) : List Delivery :=
  .header table.columns :: table.rows.toList.map .row

theorem deliverAll_rows (table : Trajectory) (rows : List (List Float)) :
    deliverAll table (rows.map .row) = ⟨table.columns, table.rows ++ rows⟩ := by
  induction rows generalizing table with
  | nil => simp [deliverAll]
  | cons row rows ih =>
    refine (ih _).trans ?_
    simp [receive, Receiver.receive]

end Trajectory

namespace Integrator

/-- A run delivers its header first and then rows only, each as long as the header. -/
theorem deliveries_shape {integrator : Integrator} (system : OdeSystem) (v : Valuation)
    (valid : integrator.settings.fault? = none) :
    ∃ rows : List (List Float), (∀ row ∈ rows, row.length = system.dimension + 1) ∧
      integrator.deliveries system v = .header (clock :: system.symbols) :: rows.map .row := by
  cases filled : system.row v v.time with
  | error fault =>
    refine ⟨[], nofun, ?_⟩
    rw [deliveries, run_eq, valid]
    simp only [filled]
    rfl
  | ok row =>
    have defined := OdeSystem.row_defined filled
    obtain ⟨k, _, reached⟩ := (integrator.run_outcome valid defined).last
    refine ⟨(List.range (k + 1)).map (integrator.orbit system v).row, ?_, ?_⟩
    · refine List.forall_mem_map.mpr fun j _ => Orbit.row_length ?_ j
      exact defined
    · rw [reached, Orbit.deliveries, List.map_map]
      rfl

/-- A trajectory holds what was delivered. -/
theorem run_trajectory {integrator : Integrator} (system : OdeSystem) (v : Valuation)
    (valid : integrator.settings.fault? = none) :
    (integrator.run system v Trajectory.empty).receiver.deliveries = integrator.deliveries system v := by
  obtain ⟨received, _⟩ := integrator.run_accepting (fun _ _ => rfl) system v Trajectory.empty
  obtain ⟨rows, _, shape⟩ := deliveries_shape system v valid
  rw [received, shape, deliverAll, List.foldl_cons]
  change (deliverAll (⟨clock :: system.symbols, #[]⟩ : Trajectory) (rows.map .row)).deliveries = _
  rw [Trajectory.deliverAll_rows, Trajectory.deliveries]
  simp

/-- How a run ends of whose calls so many were accepted: if that was all of them, like the run into a
tape; otherwise with the refusal of the next. Then the values are those at the start, unless steps
were taken: a refused row leaves the values right after its step, with the clock not yet moved on. -/
inductive Ends (integrator : Integrator) (system : OdeSystem) (v : Valuation) (run : Run σ) :
    Nat → Option Refusal → Prop
  | whole : run.result = (integrator.run system v Tape.empty).result →
      run.valuation = (integrator.run system v Tape.empty).valuation →
      Ends integrator system v run (integrator.deliveries system v).length none
  | unmoved {n refusal} : n ≤ 1 → n < (integrator.deliveries system v).length →
      run.result = .error (.refused refusal) → run.valuation = v →
      Ends integrator system v run n (some refusal)
  | atRow {k refusal} : 1 ≤ k → k + 1 < (integrator.deliveries system v).length →
      run.result = .error (.refused refusal) → run.valuation = (integrator.orbit system v).state k →
      Ends integrator system v run (k + 1) (some refusal)

omit [Receiver σ] in
theorem Ends.refused {integrator : Integrator} {system : OdeSystem} {v : Valuation} {run : Run σ} {n : Nat}
    {refusal? : Option Refusal} (ends : Ends integrator system v run n refusal?) {refusal : Refusal}
    (answer : refusal? = some refusal) :
    run.result = .error (.refused refusal) ∧ run.valuation = (integrator.orbit system v).state (n - 1) := by
  cases ends with
  | whole => cases answer
  | unmoved atStart _ result values =>
    cases answer
    have none : n - 1 = 0 := by omega
    exact ⟨result, values.trans (congrArg (integrator.orbit system v).state none).symm⟩
  | atRow _ _ result values =>
    cases answer
    exact ⟨result, values⟩

omit [Receiver σ] in
theorem Ends.accepted {integrator : Integrator} {system : OdeSystem} {v : Valuation} {run : Run σ} {n : Nat}
    (ends : Ends integrator system v run n none) :
    run.result = (integrator.run system v Tape.empty).result ∧
      run.valuation = (integrator.run system v Tape.empty).valuation := by
  cases ends with
  | whole result values => exact ⟨result, values⟩

theorem run_ends (integrator : Integrator) (system : OdeSystem) (v : Valuation) (receiver : σ) :
    let calls := integrator.deliveries system v
    Ends integrator system v (integrator.run system v receiver) (taken receiver calls) (offer receiver calls).2 := by
  intro calls
  obtain ⟨_, refused, whole⟩ := integrator.run_cut system v receiver
  obtain ⟨_, bound, count⟩ := offer_cut receiver calls
  cases answer : (offer receiver calls).2 with
  | none =>
    obtain ⟨result, values⟩ := whole answer
    rw [count.mp answer]
    exact .whole result values
  | some refusal =>
    obtain ⟨result, values⟩ := refused refusal answer
    have early : taken receiver calls < calls.length :=
      Nat.lt_of_le_of_ne bound fun all => nomatch answer.symm.trans (count.mpr all)
    rcases Nat.lt_or_ge 1 (taken receiver calls) with moved | atStart
    · obtain ⟨k, here⟩ : ∃ k, taken receiver calls = k + 1 := ⟨taken receiver calls - 1, by omega⟩
      rw [here] at values early ⊢
      exact .atRow (by omega) early result values
    · have none : taken receiver calls - 1 = 0 := by omega
      exact .unmoved atStart early result (values.trans (congrArg (integrator.orbit system v).state none))

/-- A receiver is offered the calls up to the first that it refuses. -/
theorem run_offered (integrator : Integrator) (system : OdeSystem) (v : Valuation) (receiver : σ) :
    let calls := integrator.deliveries system v
    let recorded := integrator.run system v (⟨receiver, []⟩ : Recorder σ)
    integrator.run system v receiver = recorded.view Recorder.receiver ∧
      recorded.receiver.offered = calls.take (taken receiver calls + 1) := by
  intro calls recorded
  have received : recorded.receiver = _ := (integrator.run_cut system v _).received
  have count := (offer_view Recorder.mirrors (⟨receiver, []⟩ : Recorder σ) calls).2
  refine ⟨integrator.run_view Recorder.mirrors system v ⟨receiver, []⟩, ?_⟩
  rw [received, (offer_cut _ _).1, Recorder.deliverAll_offered, ← count, List.nil_append]

theorem run_limited (accepting : Accepting σ) (integrator : Integrator) (system : OdeSystem) (v : Valuation)
    (receiver : σ) (n : Nat) :
    let calls := integrator.deliveries system v
    let run := integrator.run system v (⟨receiver, n⟩ : Limited σ)
    run.receiver.receiver = deliverAll receiver (calls.take n) ∧
      integrator.Ends system v run (min n calls.length) (if n < calls.length then some .sinkFull else none) := by
  intro calls run
  have kept : run.receiver = _ := (integrator.run_cut system v _).received
  obtain ⟨received, answer, count⟩ := Limited.offer_eq accepting receiver n calls
  rw [kept, ← answer, ← count]
  exact ⟨received, integrator.run_ends system v _⟩

/-- A run into a text table writes the text of its calls, or as many of the first bytes as there is room for. -/
theorem run_table (integrator : Integrator) (system : OdeSystem) (v : Valuation) (capacity : Option Nat) :
    let calls := integrator.deliveries system v
    let table := integrator.run system v (TextTable.empty capacity)
    let text := octets (render calls)
    table.receiver.written.bytes = keep capacity text ∧
      (refusal? capacity text = none → table.receiver.kept = render calls) ∧
      integrator.Ends system v table (taken (TextTable.empty capacity) calls) (refusal? capacity text) := by
  intro calls table text
  have received : table.receiver = (offer (TextTable.empty capacity) calls).1 :=
    (integrator.run_cut system v _).received
  obtain ⟨bytes, answer⟩ := TextTable.offer_written capacity calls
  refine ⟨?_, fun whole => ?_, ?_⟩
  · rw [received, bytes]
  · have fits : (TextTable.empty capacity).overfull = false := by cases capacity <;> rfl
    obtain ⟨all, within⟩ := TextTable.offer_whole fits (answer.trans whole)
    rw [received, TextTable.kept_of_fits within, all]
    exact String.empty_append
  · rw [← answer]
    exact integrator.run_ends system v (TextTable.empty capacity)

theorem run_byteWriter (integrator : Integrator) (system : OdeSystem) (v : Valuation) (capacity : Option Nat) :
    integrator.run system v (ByteWriter.empty capacity) =
      (integrator.run system v (TextTable.empty capacity)).view TextTable.written := by
  rw [← TextTable.empty_written]
  exact integrator.run_view TextTable.mirrors system v _

end Integrator

/-- Every receiver is offered one and the same list of calls, up to the first that it refuses. A text
table is the text of the trajectory of the run, or as many of its first bytes as there is room for. -/
theorem receivers_share_run (integrator : Integrator) (system : OdeSystem) (v : Valuation) (receiver : σ)
    (valid : integrator.settings.fault? = none) :
    let calls := integrator.deliveries system v
    let trajectory := (integrator.run system v Trajectory.empty).receiver
    let text := octets (render trajectory.deliveries)
    (let run := integrator.run system v receiver
      let recorded := integrator.run system v (⟨receiver, []⟩ : Recorder σ)
      let n := taken receiver calls
      run = recorded.view Recorder.receiver ∧ recorded.receiver.offered = calls.take (n + 1) ∧
        integrator.Ends system v run n (offer receiver calls).2) ∧
      (Accepting σ → ∀ n, let run := integrator.run system v (⟨receiver, n⟩ : Limited σ)
        run.receiver.receiver = deliverAll receiver (calls.take n) ∧
          integrator.Ends system v run (min n calls.length) (if n < calls.length then some .sinkFull else none)) ∧
      trajectory.deliveries = calls ∧
      ∀ capacity, let table := integrator.run system v (TextTable.empty capacity)
        let written := integrator.run system v (ByteWriter.empty capacity)
        written = table.view TextTable.written ∧ written.receiver.bytes = keep capacity text ∧
          Shows (keep capacity text) table.receiver.kept.toList ∧
          (refusal? capacity text = none → table.receiver.kept = render trajectory.deliveries) ∧
          integrator.Ends system v table (taken (TextTable.empty capacity) calls) (refusal? capacity text) := by
  intro calls trajectory text
  have tabled : trajectory.deliveries = calls := Integrator.run_trajectory system v valid
  refine ⟨?_, ?_, tabled, ?_⟩
  · intro run recorded n
    obtain ⟨same, offered⟩ := integrator.run_offered system v receiver
    exact ⟨same, offered, integrator.run_ends system v receiver⟩
  · intro accepting n
    exact integrator.run_limited accepting system v receiver n
  · intro capacity table written
    have seen : written = table.view TextTable.written := integrator.run_byteWriter system v capacity
    obtain ⟨bytes, whole, ends⟩ := integrator.run_table system v capacity
    have text_eq : text = octets (render calls) := by simp only [text, tabled]
    rw [text_eq, tabled]
    refine ⟨seen, ?_, ?_, whole, ends⟩
    · rw [seen, ← bytes]
      rfl
    · rw [← bytes]
      exact table.receiver.kept_shows

theorem receivers_share_run_decay :
    let integrator := Integrator.euler { maxtime := 1, dt := 0.5 }
    let table := integrator.run decay decayStart (TextTable.empty (some 11))
    let limited := integrator.run decay decayStart (⟨Trajectory.empty, 2⟩ : Limited Trajectory)
    integrator.settings.fault? = none ∧ Accepting Trajectory ∧
      table.receiver.written.bytes = octets "t y\n0 1\n0.5" ∧ table.result = .error (.refused .writerFull) ∧
      table.valuation.get? "y" = some 0.5 ∧ table.valuation.time = 0 ∧
      limited.receiver.receiver = ⟨["t", "y"], #[[0, 1]]⟩ ∧ limited.result = .error (.refused .sinkFull) := by
  intro integrator table limited
  have valid : integrator.settings.fault? = none := by decide
  have accepting : Accepting Trajectory := fun _ _ => rfl
  obtain ⟨_, behind, tabled, texts⟩ := receivers_share_run integrator decay decayStart Trajectory.empty valid
  obtain ⟨received, cut⟩ := behind accepting 2
  obtain ⟨seen, bytes, _, _, ends⟩ := texts (some 11)
  rw [tabled] at bytes ends
  have count : taken (TextTable.empty (some 11)) (integrator.deliveries decay decayStart) = 2 := by decide +kernel
  have full : refusal? (some 11) (octets (render (integrator.deliveries decay decayStart))) = some .writerFull := by
    decide +kernel
  have calls : (integrator.deliveries decay decayStart).length = 4 := by decide +kernel
  obtain ⟨result, values⟩ := ends.refused full
  have early : (2 : Nat) < (integrator.deliveries decay decayStart).length := by rw [calls]; decide
  refine ⟨valid, accepting, ?_, result, ?_, ?_, received.trans (by decide +kernel), (cut.refused (if_pos early)).1⟩
  · have kept : keep (some 11) (octets (render (integrator.deliveries decay decayStart))) = octets "t y\n0 1\n0.5" := by
      decide +kernel
    rw [← kept, ← bytes, seen]
    rfl
  · rw [values, count]
    decide +kernel
  · rw [values, count]
    decide +kernel

end EulerFlow
