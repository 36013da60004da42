import EulerFlow.OdeSystem
import Mathlib.Data.Finset.Card
import Mathlib.Data.Finset.Dedup
import Mathlib.Data.List.Basic

namespace EulerFlow

namespace OdeSystem

variable {system : OdeSystem} {symbol : String} {equation : Expr} {calls odes : List Ode} {call ode : Ode}

theorem entries_insert_new (fresh : symbol ∉ system.symbols) :
    (system.insert symbol equation).entries = system.entries ++ [⟨symbol, equation⟩] := by
  rw [insert, dif_pos fresh]
  rfl

/-- A symbol that is known gets its new equation where it stands. -/
theorem entries_insert_again (present : symbol ∈ system.symbols) :
    (system.insert symbol equation).entries =
      system.entries.map fun ode => if ode.symbol = symbol then ⟨symbol, equation⟩ else ode := by
  rw [insert, dif_neg (not_not.mpr present)]
  refine List.map_congr_left fun ode _ => ?_
  by_cases same : ode.symbol = symbol
  · rw [if_pos same, if_pos same, same]
  · rw [if_neg same, if_neg same]

theorem symbols_insert_again (present : symbol ∈ system.symbols) :
    (system.insert symbol equation).symbols = system.symbols := by
  rw [insert, dif_neg (not_not.mpr present)]
  exact List.map_map

theorem symbols_insert_new (fresh : symbol ∉ system.symbols) :
    (system.insert symbol equation).symbols = system.symbols ++ [symbol] := by
  rw [symbols, entries_insert_new fresh, List.map_append]
  rfl

theorem mem_insert_iff : ode ∈ (system.insert symbol equation).entries ↔
    ode = ⟨symbol, equation⟩ ∨ ode ∈ system.entries ∧ ode.symbol ≠ symbol := by
  by_cases present : symbol ∈ system.symbols
  · rw [entries_insert_again present, List.mem_map]
    constructor
    · rintro ⟨old, member, rfl⟩
      by_cases same : old.symbol = symbol
      · exact .inl (if_pos same)
      · rw [if_neg same]
        exact .inr ⟨member, same⟩
    · rintro (rfl | ⟨member, other⟩)
      · obtain ⟨old, member, same⟩ := List.mem_map.mp present
        exact ⟨old, member, if_pos same⟩
      · exact ⟨ode, member, if_neg other⟩
  · rw [entries_insert_new present, List.mem_append, List.mem_singleton, or_comm]
    refine or_congr_right (iff_self_and.mpr fun member same => present ?_)
    exact same ▸ List.mem_map_of_mem member

/-- Puts an equation into the first entry of its symbol, or behind all entries if none has it. -/
def record : List Ode → Ode → List Ode
  | [], call => [call]
  | ode :: odes, call => if ode.symbol = call.symbol then call :: odes else ode :: record odes call

/-- The system after equations are registered one after the other. -/
def registered (calls : List Ode) : OdeSystem :=
  calls.foldl (fun system call => system.insert call.symbol call.equation) .empty

/-- No later call has the symbol. -/
def IsLast (calls : List Ode) (ode : Ode) : Prop :=
  ∃ before after, calls = before ++ ode :: after ∧ ode.symbol ∉ after.map Ode.symbol

/-- An entry is kept, but the one of the given symbol may get another equation. -/
def KeptBut (symbol : String) (old new : Ode) : Prop :=
  new.symbol = old.symbol ∧ (old.symbol ≠ symbol → new = old)

theorem registered_concat (calls : List Ode) (call : Ode) :
    registered (calls ++ [call]) = (registered calls).insert call.symbol call.equation :=
  List.foldl_concat ..

theorem record_new (fresh : call.symbol ∉ odes.map Ode.symbol) : record odes call = odes ++ [call] := by
  induction odes with
  | nil => rfl
  | cons ode odes ih =>
    have other : ode.symbol ≠ call.symbol := fun same => fresh (same ▸ List.mem_cons_self ..)
    rw [record, if_neg other, ih fun later => fresh (List.mem_cons_of_mem _ later), List.cons_append]

/-- The search stops at the first entry of the symbol, and behind it there is no second one. -/
theorem record_again (distinct : (odes.map Ode.symbol).Nodup) (present : call.symbol ∈ odes.map Ode.symbol) :
    record odes call = odes.map fun ode => if ode.symbol = call.symbol then call else ode := by
  induction odes with
  | nil => cases present
  | cons ode odes ih =>
    obtain ⟨once, distinct⟩ := List.nodup_cons.mp distinct
    rw [record, List.map_cons]
    by_cases same : ode.symbol = call.symbol
    · have behind : ∀ other ∈ odes, (if other.symbol = call.symbol then call else other) = other := by
        intro other member
        refine if_neg fun again => once ?_
        rw [same, ← again]
        exact List.mem_map_of_mem member
      rw [if_pos same, if_pos same, List.map_congr_left behind, List.map_id']
    · have later := (List.mem_cons.mp present).resolve_left (Ne.symm same)
      rw [if_neg same, if_neg same, ih distinct later]

/-- The insertion that goes through a list and stops at the symbol comes to the same as the one by cases. -/
theorem entries_insert (system : OdeSystem) (call : Ode) :
    (system.insert call.symbol call.equation).entries = record system.entries call := by
  by_cases present : call.symbol ∈ system.symbols
  · rw [entries_insert_again present, record_again system.distinct present]
  · rw [entries_insert_new present, record_new present]

theorem entries_registered (calls : List Ode) : (registered calls).entries = calls.foldl record [] := by
  induction calls using List.reverseRecOn with
  | nil => rfl
  | append_singleton calls call ih => rw [registered_concat, entries_insert, ih, List.foldl_concat]

theorem mem_symbols_registered : symbol ∈ (registered calls).symbols ↔ symbol ∈ calls.map Ode.symbol := by
  induction calls using List.reverseRecOn with
  | nil => exact Iff.rfl
  | append_singleton calls call ih =>
    rw [registered_concat, List.map_append, List.mem_append, ← ih]
    by_cases present : call.symbol ∈ (registered calls).symbols
    · rw [symbols_insert_again present]
      refine ⟨.inl, fun member => member.elim id fun new => ?_⟩
      exact List.mem_singleton.mp new ▸ present
    · rw [symbols_insert_new present, List.mem_append]
      rfl

/-- The symbols stand in the order in which they are first registered. -/
theorem symbols_ordered (calls : List Ode) :
    (registered calls).symbols.Pairwise fun a b =>
      (calls.map Ode.symbol).idxOf a < (calls.map Ode.symbol).idxOf b := by
  induction calls using List.reverseRecOn with
  | nil => exact .nil
  | append_singleton calls call ih =>
    have kept : (registered calls).symbols.Pairwise fun a b =>
        ((calls ++ [call]).map Ode.symbol).idxOf a < ((calls ++ [call]).map Ode.symbol).idxOf b := by
      refine ih.imp_of_mem fun first second before => ?_
      rw [List.map_append, List.idxOf_append_of_mem (mem_symbols_registered.mp first),
        List.idxOf_append_of_mem (mem_symbols_registered.mp second)]
      exact before
    rw [registered_concat]
    by_cases present : call.symbol ∈ (registered calls).symbols
    · rwa [symbols_insert_again present]
    · rw [symbols_insert_new present, List.pairwise_append]
      refine ⟨kept, List.pairwise_singleton _ _, fun old member new last => ?_⟩
      obtain rfl := List.mem_singleton.mp last
      have earlier := mem_symbols_registered.mp member
      rw [List.map_append, List.idxOf_append_of_mem earlier,
        List.idxOf_append_of_notMem (mt mem_symbols_registered.mpr present)]
      exact Nat.lt_add_right _ (List.idxOf_lt_length_iff.mpr earlier)

/-- The last call for a symbol is the new one, or an old one for another symbol. -/
theorem isLast_concat :
    IsLast (calls ++ [call]) ode ↔ ode = call ∨ IsLast calls ode ∧ ode.symbol ≠ call.symbol := by
  constructor
  · rintro ⟨before, after, whole, last⟩
    cases after using List.reverseRecOn with
    | nil => exact .inl (List.singleton_inj.mp (List.append_inj' whole rfl).2).symm
    | append_singleton after later =>
      rw [← List.cons_append, ← List.append_assoc] at whole
      obtain ⟨rfl, same⟩ := List.append_inj' whole rfl
      obtain rfl := List.singleton_inj.mp same
      rw [List.map_append, List.mem_append, not_or] at last
      exact .inr ⟨⟨before, after, rfl, last.1⟩, fun again => last.2 (List.mem_singleton.mpr again)⟩
  · rintro (rfl | ⟨⟨before, after, rfl, last⟩, other⟩)
    · exact ⟨calls, [], rfl, List.not_mem_nil⟩
    · refine ⟨before, after ++ [call], List.append_assoc .., ?_⟩
      rw [List.map_append, List.mem_append, not_or]
      exact ⟨last, fun again => other (List.mem_singleton.mp again)⟩

/-- Each symbol has the equation that it was given last. -/
theorem mem_registered_iff : ode ∈ (registered calls).entries ↔ IsLast calls ode := by
  induction calls using List.reverseRecOn with
  | nil =>
    refine ⟨nofun, ?_⟩
    rintro ⟨before, after, whole, _⟩
    exact absurd whole.symm (List.append_ne_nil_of_right_ne_nil before (List.cons_ne_nil ode after))
  | append_singleton calls call ih => rw [registered_concat, mem_insert_iff, isLast_concat, ih]

theorem dimension_registered (calls : List Ode) :
    (registered calls).dimension = (calls.map Ode.symbol).toFinset.card := by
  have same : (calls.map Ode.symbol).toFinset = (registered calls).symbols.toFinset := by
    ext symbol
    rw [List.mem_toFinset, List.mem_toFinset, mem_symbols_registered]
  have distinct : (registered calls).symbols.Nodup := (registered calls).distinct
  rw [same, List.toFinset_card_of_nodup distinct, symbols, List.length_map, dimension]

section

variable {old new : OdeSystem}

theorem symbols_of_kept (kept : List.Forall₂ (KeptBut symbol) old.entries new.entries) :
    new.symbols = old.symbols := by
  have same : List.Forall₂ Eq (old.entries.map Ode.symbol) (new.entries.map Ode.symbol) :=
    List.forall₂_map_left_iff.mpr (List.forall₂_map_right_iff.mpr (kept.imp fun _ _ kept => kept.1.symm))
  rw [List.forall₂_eq_eq_eq] at same
  exact same.symm

theorem kept_insert_again (present : call.symbol ∈ system.symbols) :
    List.Forall₂ (KeptBut call.symbol) system.entries (system.insert call.symbol call.equation).entries := by
  rw [entries_insert_again present, List.forall₂_map_right_iff, List.forall₂_same]
  intro ode _
  by_cases same : ode.symbol = call.symbol
  · rw [if_pos same]
    exact ⟨same.symm, fun other => absurd same other⟩
  · rw [if_neg same]
    exact ⟨rfl, fun _ => rfl⟩

/-- What is registered later goes to the same entry of both. -/
theorem kept_insert (kept : List.Forall₂ (KeptBut symbol) old.entries new.entries) (call : Ode) :
    List.Forall₂ (KeptBut symbol) (old.insert call.symbol call.equation).entries
      (new.insert call.symbol call.equation).entries := by
  have names := symbols_of_kept kept
  by_cases present : call.symbol ∈ old.symbols
  · rw [entries_insert_again present, entries_insert_again (names ▸ present), List.forall₂_map_left_iff,
      List.forall₂_map_right_iff]
    refine kept.imp fun ode ode' ⟨same, whole⟩ => ?_
    rw [same]
    by_cases hit : ode.symbol = call.symbol
    · rw [if_pos hit, if_pos hit]
      exact ⟨rfl, fun _ => rfl⟩
    · rw [if_neg hit, if_neg hit]
      exact ⟨same, whole⟩
  · rw [entries_insert_new present, entries_insert_new (names ▸ present)]
    exact List.rel_append kept (.cons ⟨rfl, fun _ => rfl⟩ .nil)

/-- A call for a known symbol changes no equation but that of the symbol, whatever is registered later. -/
theorem kept_registered (before after : List Ode) (again : call.symbol ∈ before.map Ode.symbol) :
    List.Forall₂ (KeptBut call.symbol) (registered (before ++ after)).entries
      (registered (before ++ call :: after)).entries := by
  induction after using List.reverseRecOn with
  | nil =>
    rw [List.append_nil, registered_concat]
    exact kept_insert_again (mem_symbols_registered.mpr again)
  | append_singleton after later ih =>
    rw [← List.cons_append, ← List.append_assoc, ← List.append_assoc, registered_concat, registered_concat]
    exact kept_insert ih later

end

/-- The system is an ordered map. Its symbols are those that were registered, each once and in the order of their first
registration, and each has the equation of its last. To register a symbol again, at any time, moves nothing and
exchanges nothing but its equation. -/
theorem registered_keeps_first_place (calls : List Ode) :
    let system := registered calls
    system.entries = calls.foldl record [] ∧
      system.symbols.Nodup ∧
      (∀ symbol, symbol ∈ system.symbols ↔ symbol ∈ calls.map Ode.symbol) ∧
      (system.symbols.Pairwise fun a b => (calls.map Ode.symbol).idxOf a < (calls.map Ode.symbol).idxOf b) ∧
      (∀ ode, ode ∈ system.entries ↔ IsLast calls ode) ∧
      system.dimension = (calls.map Ode.symbol).toFinset.card ∧
      ∀ before call after, calls = before ++ call :: after → call.symbol ∈ before.map Ode.symbol →
        List.Forall₂ (KeptBut call.symbol) (registered (before ++ after)).entries system.entries := by
  intro system
  refine ⟨entries_registered calls, system.distinct, fun symbol => mem_symbols_registered, symbols_ordered calls,
    fun ode => mem_registered_iff, dimension_registered calls, ?_⟩
  rintro before call after rfl again
  exact kept_registered before after again

example : (registered [⟨"x", .constant 1⟩, ⟨"y", .constant 2⟩, ⟨"x", .constant 5⟩]).entries =
    [⟨"x", .constant 5⟩, ⟨"y", .constant 2⟩] := rfl

end OdeSystem

end EulerFlow
