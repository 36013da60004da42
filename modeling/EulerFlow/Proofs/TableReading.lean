import EulerFlow.Proofs.Drivers
import EulerFlow.Proofs.WrittenNumber

namespace EulerFlow

/-- The pieces of a text between the places of a character. -/
def cutAt (sep : Char) (text : String) : List String :=
  (text.toList.splitOn sep).map String.ofList

/-- The lines of a text, of which each ends with a newline. -/
def linesOf (text : String) : List String :=
  (cutAt '\n' text).dropLast

/-- The fields of a line, which single spaces part. -/
def fieldsOf (line : String) : List String :=
  cutAt ' ' line

/-- The table that a text is read as: the first line names the columns, and all other fields are numbers. -/
def Trajectory.ofText? (text : String) : Option Trajectory :=
  match (linesOf text).map fieldsOf with
  | [] => some .empty
  | columns :: rows =>
    (rows.mapM (List.mapM fun field => Decimal.read? field.toList)).map fun rows => ⟨columns, rows.toArray⟩

/-- A name that is one field of one line. -/
def PlainName (name : String) : Prop :=
  ' ' ∉ name.toList ∧ '\n' ∉ name.toList

instance : DecidablePred PlainName := fun name => inferInstanceAs (Decidable (' ' ∉ name.toList ∧ '\n' ∉ name.toList))

theorem mem_splitOn {α : Type} [BEq α] [LawfulBEq α] {sep : α} {xs piece : List α} (member : piece ∈ xs.splitOn sep) :
    ∀ x ∈ piece, x ≠ sep ∧ x ∈ xs := by
  induction xs generalizing piece with
  | nil =>
    rw [List.splitOn_nil, List.mem_singleton] at member
    rw [member]
    exact List.forall_mem_nil _
  | cons y xs ih =>
    rw [List.splitOn_cons_eq_if_modifyHead] at member
    have others {rest : List α} (member : rest ∈ xs.splitOn sep) : ∀ x ∈ rest, x ≠ sep ∧ x ∈ y :: xs :=
      fun x here => (ih member x here).imp_right (List.mem_cons_of_mem y)
    split at member
    · rcases List.mem_cons.mp member with rfl | behind
      · exact List.forall_mem_nil _
      · exact others behind
    · rename_i differs
      obtain ⟨first, rest, pieces⟩ := List.exists_cons_of_ne_nil (List.splitOn_ne_nil sep xs)
      rw [pieces] at others
      rw [pieces, List.modifyHead_cons] at member
      rcases List.mem_cons.mp member with rfl | behind
      · refine List.forall_mem_cons.mpr ⟨⟨fun same => ?_, List.mem_cons_self ..⟩, others (List.mem_cons_self ..)⟩
        exact differs (beq_iff_eq.mpr same)
      · exact others (List.mem_cons_of_mem _ behind)

theorem mem_cutAt {sep : Char} {text piece : String} (member : piece ∈ cutAt sep text) :
    sep ∉ piece.toList ∧ ∀ c ∈ piece.toList, c ∈ text.toList := by
  obtain ⟨cs, within, rfl⟩ := List.mem_map.mp member
  rw [String.toList_ofList]
  exact ⟨fun here => (mem_splitOn within sep here).1 rfl, fun c here => (mem_splitOn within c here).2⟩

/-- Pieces come apart again where they were joined, and nowhere else if none of them has the separator in it. -/
theorem cutAt_intercalate {sep : Char} {pieces : List String} (apart : ∀ piece ∈ pieces, sep ∉ piece.toList)
    (nonempty : pieces ≠ []) : cutAt sep ((String.singleton sep).intercalate pieces) = pieces := by
  rw [cutAt, String.toList_intercalate, String.toList_singleton,
    List.splitOn_intercalate sep (List.forall_mem_map.mpr apart) (fun none => nonempty (List.map_eq_nil_iff.mp none)),
    List.map_map]
  exact (List.map_congr_left fun piece _ => String.ofList_toList).trans (List.map_id _)

theorem cutAt_line {line : String} (whole : '\n' ∉ line.toList) (text : String) :
    cutAt '\n' (line ++ "\n" ++ text) = line :: cutAt '\n' text := by
  have joined : (line ++ "\n" ++ text).toList = line.toList ++ '\n' :: text.toList := by
    rw [String.toList_append, String.toList_append, List.append_assoc]
    rfl
  rw [cutAt, joined, List.splitOn_append_cons_self_of_not_mem whole, List.map_cons, String.ofList_toList, cutAt]

/-- What stands between the spaces of a line. -/
def Delivery.fields : Delivery → List String
  | .header columns => columns
  | .row values => values.map Decimal.text

theorem Delivery.line_eq (d : Delivery) : d.line = (String.singleton ' ').intercalate d.fields ++ "\n" := by
  cases d <;> rfl

theorem newline_intercalate {pieces : List String} (whole : ∀ piece ∈ pieces, '\n' ∉ piece.toList) :
    '\n' ∉ ((String.singleton ' ').intercalate pieces).toList := by
  rw [String.toList_intercalate, String.toList_singleton]
  induction pieces with
  | nil => exact List.not_mem_nil
  | cons piece pieces ih =>
    obtain ⟨here, others⟩ := List.forall_mem_cons.mp whole
    cases pieces with
    | nil => rwa [List.map_singleton, List.intercalate_singleton]
    | cons next pieces =>
      rw [List.map_cons, List.map_cons, List.intercalate_cons_cons, List.mem_append, List.mem_append]
      rintro ((first | space) | behind)
      · exact here first
      · exact absurd (List.mem_singleton.mp space) (by decide)
      · exact ih others behind

/-- A text of lines that no field breaks falls apart into these lines. -/
theorem linesOf_render {ds : List Delivery} (whole : ∀ d ∈ ds, ∀ field ∈ d.fields, '\n' ∉ field.toList) :
    linesOf (render ds) = ds.map fun d => (String.singleton ' ').intercalate d.fields := by
  have cut : cutAt '\n' (render ds) = (ds.map fun d => (String.singleton ' ').intercalate d.fields) ++ [""] := by
    induction ds with
    | nil => rfl
    | cons d ds ih =>
      obtain ⟨here, others⟩ := List.forall_mem_cons.mp whole
      rw [render_cons, d.line_eq, cutAt_line (newline_intercalate here), ih others]
      rfl
  rw [linesOf, cut, List.dropLast_concat]

theorem Decimal.text_plain (x : Float) : PlainName (text x) :=
  ⟨fun space => (text_chars x _ space).1 rfl, fun newline => (text_chars x _ newline).2 rfl⟩

/-- A line shows its fields, whatever the numbers. -/
theorem Delivery.plain {table : Trajectory} (plain : ∀ name ∈ table.columns, PlainName name) :
    ∀ d ∈ table.deliveries, ∀ field ∈ d.fields, PlainName field := by
  refine List.forall_mem_cons.mpr ⟨plain, List.forall_mem_map.mpr fun row _ => ?_⟩
  exact List.forall_mem_map.mpr fun x _ => Decimal.text_plain x

/-- The fields of a table as they stand in its text. -/
theorem fieldsOf_linesOf {ds : List Delivery} (plain : ∀ d ∈ ds, ∀ field ∈ d.fields, PlainName field)
    (nonempty : ∀ d ∈ ds, d.fields ≠ []) : (linesOf (render ds)).map fieldsOf = ds.map Delivery.fields := by
  rw [linesOf_render fun d member field within => (plain d member field within).2, List.map_map]
  refine List.map_congr_left fun d member => ?_
  exact cutAt_intercalate (fun field within => (plain d member field within).1) (nonempty d member)

theorem length_of_map_fieldsOf {lines : List String} {pieces : List (List String)} {n : Nat}
    (cut : lines.map fieldsOf = pieces) (long : ∀ fields ∈ pieces, fields.length = n) :
    ∀ line ∈ lines, (fieldsOf line).length = n := by
  rw [← cut] at long
  exact List.forall_mem_map.mp long

/-- Reading undoes writing for a list if it does for each element. -/
theorem mapM_map {α β : Type} (write : α → β) (read : β → Option α) (undoes : ∀ a, read (write a) = some a)
    (as : List α) : (as.map write).mapM read = some as := by
  induction as with
  | nil => rfl
  | cons a as ih =>
    rw [List.map_cons, List.mapM_cons, undoes, ih]
    rfl

namespace Trajectory

/-- Numbers are read from their fields, whatever the columns are called. -/
theorem mapM_texts (rows : List (List Float)) :
    (rows.map (List.map Decimal.text)).mapM (List.mapM fun field => Decimal.read? field.toList) = some rows := by
  have values (row : List Float) : (row.map Decimal.text).mapM (fun field => Decimal.read? field.toList) = some row :=
    mapM_map Decimal.text _ Decimal.read?_text row
  exact mapM_map (List.map Decimal.text) _ values rows

theorem ofText?_render {table : Trajectory} (plain : ∀ name ∈ table.columns, PlainName name)
    (nonempty : ∀ d ∈ table.deliveries, d.fields ≠ []) : ofText? (render table.deliveries) = some table := by
  have fields := fieldsOf_linesOf (Delivery.plain plain) nonempty
  rw [ofText?, fields, deliveries, List.map_cons, List.map_map]
  change Option.map _ ((table.rows.toList.map (List.map Decimal.text)).mapM _) = _
  rw [mapM_texts]
  rfl

/-- The rows that a text is read as, from the lines behind the first. -/
def rowsOf? (text : String) : Option (List (List Float)) :=
  ((linesOf text).tail.map fieldsOf).mapM (List.mapM fun field => Decimal.read? field.toList)

/-- A space in a name disturbs the first line only: the others are cut into the numbers of their rows. -/
theorem fieldsOf_rows {table : Trajectory} (whole : ∀ name ∈ table.columns, '\n' ∉ name.toList)
    (nonempty : ∀ d ∈ table.deliveries, d.fields ≠ []) :
    (linesOf (render table.deliveries)).tail.map fieldsOf = table.rows.toList.map (List.map Decimal.text) := by
  have apart : ∀ d ∈ table.deliveries, ∀ field ∈ d.fields, '\n' ∉ field.toList := by
    refine List.forall_mem_cons.mpr ⟨whole, List.forall_mem_map.mpr fun row _ => ?_⟩
    exact List.forall_mem_map.mpr fun x _ => (Decimal.text_plain x).2
  rw [linesOf_render apart, deliveries, List.map_cons, List.tail_cons, List.map_map, List.map_map]
  refine List.map_congr_left fun row member => ?_
  have fields := nonempty (.row row) (List.mem_cons_of_mem _ (List.mem_map_of_mem member))
  exact cutAt_intercalate (List.forall_mem_map.mpr fun x _ => (Decimal.text_plain x).1) fields

/-- A text that is read has plain names only, because no cut leaves its separator in a piece. -/
theorem ofText?_plain {text : String} {table : Trajectory} (read : ofText? text = some table) :
    ∀ name ∈ table.columns, PlainName name := by
  unfold ofText? at read
  split at read
  · cases read
    exact List.forall_mem_nil _
  · rename_i columns rows shape
    obtain ⟨rows, _, rfl⟩ := Option.map_eq_some_iff.mp read
    obtain ⟨header, lines, first, rfl, _⟩ := List.map_eq_cons_iff.mp shape
    intro name member
    have line : header ∈ cutAt '\n' text := by
      refine List.mem_of_mem_dropLast ?_
      change header ∈ linesOf text
      rw [first]
      exact List.mem_cons_self ..
    obtain ⟨space, within⟩ := mem_cutAt member
    exact ⟨space, fun newline => (mem_cutAt line).1 (within _ newline)⟩

end Trajectory

namespace Model

theorem run_invalid {m : Model} {fault : SettingsFault} (invalid : m.settings.fault? = some fault) :
    (m.run Trajectory.empty).2.receiver = Trajectory.empty := by
  have refused : (Integrator.euler m.settings).settings.fault? = some fault := invalid
  change ((Integrator.euler m.settings).run m.system m.valuation Trajectory.empty).receiver = _
  rw [Integrator.run_eq, refused]
  rfl

/-- The table of a run has a column for the time and one for each symbol, and all its lines are as long. -/
theorem run_fields {m : Model} (valid : m.settings.fault? = none) :
    (m.run Trajectory.empty).2.receiver.columns = clock :: m.system.symbols ∧
      ∀ d ∈ (m.run Trajectory.empty).2.receiver.deliveries, d.fields.length = m.system.dimension + 1 := by
  have delivered := @Integrator.run_trajectory (.euler m.settings) m.system m.valuation valid
  obtain ⟨rows, long, shape⟩ := @Integrator.deliveries_shape (.euler m.settings) m.system m.valuation valid
  have same : (m.run Trajectory.empty).2.receiver.deliveries = .header (clock :: m.system.symbols) :: rows.map .row :=
    delivered.trans shape
  refine ⟨Delivery.header.inj (List.cons.inj same).1, ?_⟩
  rw [same]
  refine List.forall_mem_cons.mpr ⟨?_, List.forall_mem_map.mpr fun row member => ?_⟩
  · exact congrArg Nat.succ (List.length_map Ode.symbol)
  · exact (List.length_map Decimal.text).trans (long row member)

theorem run_fields_ne_nil {m : Model} (valid : m.settings.fault? = none) :
    ∀ d ∈ (m.run Trajectory.empty).2.receiver.deliveries, d.fields ≠ [] := by
  refine fun d member => List.ne_nil_of_length_pos ?_
  rw [(run_fields valid).2 d member]
  exact Nat.succ_pos _

/-- What a model prints is read as the table of the same run, if every column has a plain name. -/
theorem ofText?_printed (m : Model) :
    Trajectory.ofText? m.printed = some (m.run Trajectory.empty).2.receiver ↔
      ∀ name ∈ (m.run Trajectory.empty).2.receiver.columns, PlainName name := by
  refine ⟨Trajectory.ofText?_plain, fun plain => ?_⟩
  cases valid : m.settings.fault? with
  | some fault =>
    rw [printed, valid, if_neg (Option.some_ne_none fault), run_invalid valid]
    rfl
  | none =>
    rw [printed, valid, if_pos rfl]
    exact Trajectory.ofText?_render plain (run_fields_ne_nil valid)

variable {m : Model}

theorem run_plain (plain : ∀ name ∈ m.system.symbols, PlainName name) :
    ∀ name ∈ (m.run Trajectory.empty).2.receiver.columns, PlainName name := by
  cases valid : m.settings.fault? with
  | some fault =>
    rw [run_invalid valid]
    exact List.forall_mem_nil _
  | none =>
    rw [(run_fields valid).1]
    exact List.forall_mem_cons.mpr ⟨by decide, plain⟩

/-- Each line of what a model prints has a field for every column. -/
theorem printed_fields (plain : ∀ name ∈ m.system.symbols, PlainName name) :
    ∀ line ∈ linesOf m.printed, (fieldsOf line).length = m.system.dimension + 1 := by
  cases valid : m.settings.fault? with
  | some fault =>
    rw [printed, valid, if_neg (Option.some_ne_none fault)]
    exact List.forall_mem_nil _
  | none =>
    have fields := fieldsOf_linesOf (Delivery.plain (run_plain plain)) (run_fields_ne_nil valid)
    rw [printed, valid, if_pos rfl]
    exact length_of_map_fieldsOf fields (List.forall_mem_map.mpr (run_fields valid).2)

/-- With spaces in their names the columns cannot be told from the first line any more, but as long as no name breaks
that line, the rows are read as those of the run, and each of their lines has a field for every column. -/
theorem printed_rows (whole : ∀ name ∈ m.system.symbols, '\n' ∉ name.toList) :
    Trajectory.rowsOf? m.printed = some (m.run Trajectory.empty).2.receiver.rows.toList ∧
      ∀ line ∈ (linesOf m.printed).tail, (fieldsOf line).length = m.system.dimension + 1 := by
  cases valid : m.settings.fault? with
  | some fault =>
    rw [printed, valid, if_neg (Option.some_ne_none fault), run_invalid valid]
    exact ⟨rfl, List.forall_mem_nil _⟩
  | none =>
    obtain ⟨columns, long⟩ := run_fields valid
    have unbroken : ∀ name ∈ (m.run Trajectory.empty).2.receiver.columns, '\n' ∉ name.toList := by
      rw [columns]
      exact List.forall_mem_cons.mpr ⟨by decide, whole⟩
    have rows := Trajectory.fieldsOf_rows unbroken (run_fields_ne_nil valid)
    rw [printed, valid, if_pos rfl]
    refine ⟨by rw [Trajectory.rowsOf?, rows, Trajectory.mapM_texts], length_of_map_fieldsOf rows ?_⟩
    exact List.forall_mem_map.mpr fun row member =>
      long (.row row) (List.mem_cons_of_mem _ (List.mem_map_of_mem member))

end Model

/-- The text of a table, split at newlines and spaces, is read as the table of the same run exactly if no column's
name has a space or a newline in it. Among models with such names only, equal texts show equal tables. It is the
text that the command line prints, and the one that callers get with the table itself. -/
theorem table_reads_back (m : Model) :
    let text := (m.execute none).2.receiver.kept
    let table := (m.run Trajectory.empty).2.receiver
    (Trajectory.ofText? text = some table ↔ ∀ name ∈ table.columns, PlainName name) ∧
      ((∀ name ∈ m.system.symbols, PlainName name) →
        Trajectory.ofText? text = some table ∧
          (∀ line ∈ linesOf text, (fieldsOf line).length = m.system.dimension + 1) ∧
          ∀ other : Model, (∀ name ∈ other.system.symbols, PlainName name) →
            (other.execute none).2.receiver.kept = text → (other.run Trajectory.empty).2.receiver = table) ∧
      (∀ file verbosity, (ModelFile.build file).2 = .ok m → (CommandLine.runFile file verbosity).stdout = text) ∧
      ∀ answer, (TextModel.mk m).table.answer = .ok answer →
        answer = text ∧ ∃ summary, (TextModel.mk m).run.answer = .ok (summary, table) := by
  intro text table
  have shown : text = m.printed := m.execute_printed.1
  have read := m.ofText?_printed
  rw [shown]
  refine ⟨read, fun plain => ?_, fun file verbosity built => ?_, fun answer answered => ?_⟩
  · have back := read.mpr (Model.run_plain plain)
    refine ⟨back, Model.printed_fields plain, fun other plain' same => ?_⟩
    have back' := other.ofText?_printed.mpr (Model.run_plain plain')
    rw [← other.execute_printed.1, same, back] at back'
    exact (Option.some.inj back').symm
  · exact (CommandLine.runFile_built built verbosity).1
  · have tabled := answered.symm.trans (TextModel.mk m).table_answer
    rw [TextModel.run_answer]
    cases ended : (m.run Trajectory.empty).2.result with
    | error fault =>
      rw [ended] at tabled
      cases tabled
    | ok summary =>
      rw [ended] at tabled
      exact ⟨Except.ok.inj tabled, summary, rfl⟩

/-- A name with a space makes two columns of one, and two models that print the same text may differ. -/
theorem spaced_names_misread :
    let first := (((TextModel.new 0.5 0.5).ode "a b" "1").model.ode "c" "1").model.model
    let second := (((TextModel.new 0.5 0.5).ode "a" "1").model.ode "b c" "1").model.model
    let table := (first.run Trajectory.empty).2.receiver
    (first.execute none).2.receiver.kept = "t a b c\n0 0 0\n0.5 0.5 0.5\n" ∧
      (second.execute none).2.receiver.kept = (first.execute none).2.receiver.kept ∧
      table.columns = ["t", "a b", "c"] ∧ (second.run Trajectory.empty).2.receiver ≠ table ∧
      Trajectory.ofText? (first.execute none).2.receiver.kept ≠ some table ∧
      (linesOf (first.execute none).2.receiver.kept).map (fun line => (fieldsOf line).length) = [4, 3, 3] := by
  intro first second table
  have text : (first.execute none).2.receiver.kept = "t a b c\n0 0 0\n0.5 0.5 0.5\n" := by decide +kernel
  have again : (second.execute none).2.receiver.kept = "t a b c\n0 0 0\n0.5 0.5 0.5\n" := by decide +kernel
  have columns : table.columns = ["t", "a b", "c"] := by decide +kernel
  have others : (second.run Trajectory.empty).2.receiver.columns = ["t", "a", "b c"] := by decide +kernel
  refine ⟨text, again.trans text.symm, columns, fun same => ?_, fun read => ?_, ?_⟩
  · rw [same, columns] at others
    exact absurd others (by decide)
  · have plain := Trajectory.ofText?_plain read "a b" (by rw [columns]; decide)
    exact absurd plain (by decide)
  · rw [text]
    decide +kernel

end EulerFlow
