import EulerFlow.Proofs.Recorder
import EulerFlow.Proofs.Tape
import EulerFlow.Table.ByteWriter

namespace EulerFlow

theorem octets_append (s t : String) : octets (s ++ t) = octets s ++ octets t := by
  simp [octets, String.toByteArray_append]

theorem octets_empty : octets "" = [] := by
  simp [octets]

theorem octets_length (s : String) : (octets s).length = s.utf8ByteSize := by
  simp [octets]

/-- The bytes of a text are those of its characters, one after another. -/
theorem octets_eq (s : String) : octets s = s.toList.flatMap String.utf8EncodeChar := by
  have encoded := String.toByteArray_ofList (l := s.toList)
  rw [String.ofList_toList, List.utf8Encode] at encoded
  rw [octets, encoded, List.data_toByteArray]

/-- Nothing is refused exactly if everything is kept. -/
theorem refusal?_eq_none_iff {capacity : Option Nat} {bytes : List UInt8} :
    refusal? capacity bytes = none ↔ keep capacity bytes = bytes := by
  cases capacity with
  | none => exact ⟨fun _ => rfl, fun _ => rfl⟩
  | some room =>
    rw [refusal?, keep, ite_eq_right_iff]
    constructor
    · intro never
      refine List.take_of_length_le (Nat.le_of_not_lt fun full => ?_)
      cases never full
    · intro fits full
      have length := congrArg List.length fits
      rw [List.length_take] at length
      omega

/-- Behind bytes that do not all fit, none is kept. -/
theorem keep_append {capacity : Option Nat} {bytes : List UInt8} {refusal : Refusal}
    (refused : refusal? capacity bytes = some refusal) (further : List UInt8) :
    keep capacity (bytes ++ further) = keep capacity bytes ∧ refusal? capacity (bytes ++ further) = some refusal := by
  cases capacity with
  | none => cases refused
  | some room =>
    simp only [refusal?, Option.ite_none_right_eq_some] at refused ⊢
    obtain ⟨full, same⟩ := refused
    refine ⟨List.take_append_of_le_length (Nat.le_of_lt full), ?_, same⟩
    rw [List.length_append]
    omega

/-- Where bytes were lost there is no room for any other. -/
theorem keep_full {capacity : Option Nat} {bytes further : List UInt8} {refusal : Refusal}
    (refused : refusal? capacity bytes = some refusal) (more : further ≠ []) :
    keep capacity (keep capacity bytes ++ further) = keep capacity bytes ∧
      refusal? capacity (keep capacity bytes ++ further) = some refusal := by
  cases capacity with
  | none => cases refused
  | some room =>
    simp only [refusal?, Option.ite_none_right_eq_some] at refused ⊢
    obtain ⟨full, same⟩ := refused
    have length : (keep (some room) bytes).length = room := List.length_take_of_le (Nat.le_of_lt full)
    have positive := List.length_pos_iff.mpr more
    refine ⟨?_, ?_, same⟩
    · rw [keep, List.take_append_of_le_length (Nat.le_of_eq length.symm), keep, List.take_take, Nat.min_self]
    · rw [List.length_append, length]
      omega

namespace ByteWriter

theorem write_empty (w : ByteWriter) : w.write "" = (w, none) := by
  have fits := w.fits
  have accepted := refusal?_eq_none_iff.mpr fits
  simp only [write, octets_empty, List.append_nil, accepted, fits]

/-- A writer does not care in which pieces a text is written. -/
theorem writeAll_join (w : ByteWriter) (pieces : List String) : w.writeAll pieces = w.write (String.join pieces) := by
  induction pieces generalizing w with
  | nil => exact w.write_empty.symm
  | cons piece pieces ih =>
    have whole : w.write (String.join (piece :: pieces)) =
        (⟨w.capacity, keep w.capacity (w.bytes ++ octets piece ++ octets (String.join pieces)), keep_keep ..⟩,
          refusal? w.capacity (w.bytes ++ octets piece ++ octets (String.join pieces))) := by
      simp only [write, String.join_cons, octets_append, List.append_assoc]
    rw [whole]
    cases outcome : refusal? w.capacity (w.bytes ++ octets piece) with
    | some refusal =>
      obtain ⟨kept, refused⟩ := keep_append outcome (octets (String.join pieces))
      simp only [writeAll, write, outcome, kept, refused]
    | none =>
      have fits := refusal?_eq_none_iff.mp outcome
      simp only [writeAll, write, outcome, ih, fits]

end ByteWriter

theorem join_intersperse (sep : String) (fields : List String) :
    String.join (fields.intersperse sep) = sep.intercalate fields := by
  rw [← String.toList_inj, String.toList_join, String.toList_intercalate, List.intercalate]
  induction fields with
  | nil => rfl
  | cons first fields ih =>
    cases fields with
    | nil => rfl
    | cons second fields =>
      simp only [List.intersperse_cons_cons, List.map_cons, List.flatMap_cons, List.flatten_cons] at ih ⊢
      rw [ih]

theorem Delivery.pieces_join (d : Delivery) : String.join d.pieces = d.line := by
  cases d with
  | header columns => simp [pieces, line, String.join_cons]
  | row values => simp only [pieces, line, String.join_append, join_intersperse]; simp

/-- The text of a table: one line for each delivery. -/
def render (ds : List Delivery) : String :=
  String.join (ds.map Delivery.line)

theorem render_cons (d : Delivery) (ds : List Delivery) : render (d :: ds) = d.line ++ render ds :=
  String.join_cons

namespace ByteWriter

theorem writeAll_append (w : ByteWriter) (pieces others : List String) :
    w.writeAll (pieces ++ others) =
      match w.writeAll pieces with
      | (w, some refusal) => (w, some refusal)
      | (w, none) => w.writeAll others := by
  induction pieces generalizing w with
  | nil => rfl
  | cons piece pieces ih =>
    simp only [List.cons_append, writeAll]
    rcases w.write piece with ⟨after, _ | refusal⟩
    · exact ih after
    · rfl

/-- It makes no difference in how many calls the pieces are written. -/
theorem offer_pieces (w : ByteWriter) (ds : List Delivery) : offer w ds = w.writeAll (ds.flatMap Delivery.pieces) := by
  induction ds generalizing w with
  | nil => rfl
  | cons d ds ih =>
    rw [List.flatMap_cons, writeAll_append]
    rcases answer : w.writeAll d.pieces with ⟨after, _ | refusal⟩
    · rw [(offer_accepted answer ds).1, ih]
    · rw [(offer_refused answer ds).1]

/-- A table is written like one text, up to the byte that does not fit. -/
theorem offer_render (w : ByteWriter) (ds : List Delivery) : offer w ds = w.write (render ds) := by
  have joined : String.join (ds.flatMap Delivery.pieces) = render ds := by
    induction ds with
    | nil => rfl
    | cons d ds ih => rw [List.flatMap_cons, String.join_append, ih, d.pieces_join, render_cons]
  rw [offer_pieces, writeAll_join, joined]

end ByteWriter

/-- The text that bytes show. A character that breaks off at the end shows as a replacement. -/
inductive Shows : List UInt8 → List Char → Prop
  | whole (cs : List Char) : Shows (cs.flatMap String.utf8EncodeChar) cs
  | broken (cs : List Char) {c : Char} {part : List UInt8} : part <+: String.utf8EncodeChar c → part ≠ [] →
      part.length < c.utf8Size → Shows (cs.flatMap String.utf8EncodeChar ++ part) (cs ++ ['\ufffd'])

theorem Shows.cons {bytes : List UInt8} {cs : List Char} (shown : Shows bytes cs) (c : Char) :
    Shows (String.utf8EncodeChar c ++ bytes) (c :: cs) := by
  cases shown with
  | whole => exact .whole (c :: cs)
  | broken cs within nonempty short =>
    rw [← List.append_assoc]
    exact .broken (c :: cs) within nonempty short

namespace TextTable

/-- A text that is cut off shows the characters that fit, and a replacement for one that fits in part. -/
theorem cut_shows (room : Nat) (cs : List Char) :
    Shows ((cs.flatMap String.utf8EncodeChar).take room) (cut room cs) := by
  induction cs generalizing room with
  | nil =>
    rw [List.flatMap_nil, List.take_nil, cut]
    exact .whole []
  | cons c cs ih =>
    have size := String.length_utf8EncodeChar c
    rw [List.flatMap_cons, cut]
    split
    · rename_i fits
      rw [List.take_append, List.take_of_length_le (by omega), size]
      exact (ih _).cons c
    · rename_i short
      rw [List.take_append_of_le_length (by omega)]
      split
      · rename_i full
        rw [full, List.take_zero]
        exact .whole []
      · rename_i positive
        have length : ((String.utf8EncodeChar c).take room).length = room := List.length_take_of_le (by omega)
        refine .broken [] (List.take_prefix ..) (List.ne_nil_of_length_pos ?_) ?_
        · omega
        · omega

/-- The table as bytes. -/
def written (table : TextTable) : ByteWriter where
  capacity := table.capacity
  bytes := keep table.capacity (octets table.offered)
  fits := keep_keep ..

theorem refusal?_offered (table : TextTable) :
    refusal? table.capacity (octets table.offered) = if table.overfull then some .writerFull else none := by
  obtain ⟨capacity, offered⟩ := table
  cases capacity with
  | none => rfl
  | some room => simp [refusal?, overfull, octets_length]

theorem receive_of_fits {table : TextTable} (fits : table.overfull = false) (d : Delivery) :
    table.receive d = (⟨table.capacity, table.offered ++ d.line⟩,
      if overfull ⟨table.capacity, table.offered ++ d.line⟩ then some .writerFull else none) := by
  rw [receive, fits]
  rfl

theorem line_octets (d : Delivery) : octets d.line ≠ [] := by
  unfold Delivery.line
  rw [octets_append]
  exact List.append_ne_nil_of_right_ne_nil _ (by decide)

/-- To write a table line by line and to write it piece by piece are the same. -/
theorem mirrors : Mirrors written := by
  intro table d
  change table.written.writeAll d.pieces = (written (table.receive d).1, (table.receive d).2)
  rw [ByteWriter.writeAll_join, d.pieces_join]
  have answer := table.refusal?_offered
  cases full : table.overfull with
  | true =>
    rw [full, if_pos rfl] at answer
    obtain ⟨kept, refused⟩ := keep_full answer (line_octets d)
    have unchanged : table.receive d = (table, some .writerFull) := by rw [receive, if_pos full]
    rw [unchanged]
    simp only [ByteWriter.write, written, kept, refused]
  | false =>
    rw [full, if_neg Bool.false_ne_true] at answer
    have fits := refusal?_eq_none_iff.mp answer
    have longer := refusal?_offered ⟨table.capacity, table.offered ++ d.line⟩
    rw [receive_of_fits full, ← longer]
    simp only [ByteWriter.write, written, fits, octets_append]

/-- The text of a table is what its bytes show. -/
theorem kept_shows (table : TextTable) : Shows table.written.bytes table.kept.toList := by
  have answer := table.refusal?_offered
  obtain ⟨capacity, offered⟩ := table
  cases capacity with
  | none =>
    change Shows (octets offered) offered.toList
    rw [octets_eq]
    exact .whole _
  | some room =>
    cases full : overfull ⟨some room, offered⟩ with
    | true =>
      have text : kept ⟨some room, offered⟩ = String.ofList (cut room offered.toList) := if_pos full
      change Shows ((octets offered).take room) _
      rw [text, String.toList_ofList, octets_eq]
      exact cut_shows room offered.toList
    | false =>
      have text : kept ⟨some room, offered⟩ = offered := if_neg (Bool.eq_false_iff.mp full)
      rw [full, if_neg Bool.false_ne_true] at answer
      change Shows (keep (some room) (octets offered)) _
      rw [text, refusal?_eq_none_iff.mp answer, octets_eq]
      exact .whole _

end TextTable

end EulerFlow
