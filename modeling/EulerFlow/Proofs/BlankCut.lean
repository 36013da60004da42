import EulerFlow.Proofs.FirstWrongToken
import EulerFlow.Proofs.Spelling

namespace EulerFlow

/-- The same fault of a text with so many bytes more in front. -/
def ParseError.shifted (bytes : Nat) : ParseError → ParseError
  | .unexpectedChar c offset => .unexpectedChar c (bytes + offset)
  | fault => fault

namespace Lexeme

/-- The tokens of one text and then those of another. A fault in the first is found first. -/
def followed : Except ParseError (List Token) → Except ParseError (List Token) → Except ParseError (List Token)
  | .error fault, _ => .error fault
  | .ok _, .error fault => .error fault
  | .ok ts, .ok us => .ok (ts ++ us)

theorem map_followed (first second : Except ParseError (List Token)) (t : Token) :
    (followed first second).map (t :: ·) = followed (first.map (t :: ·)) second := by
  cases first <;> cases second <;> rfl

theorem map_mapError (scanned : Except ParseError (List Token)) (f : ParseError → ParseError)
    (g : List Token → List Token) : (scanned.map g).mapError f = (scanned.mapError f).map g := by
  cases scanned <;> rfl

theorem error_of_map {scanned : Except ParseError (List Token)} {f : List Token → List Token} {fault : ParseError}
    (failed : scanned.map f = .error fault) : scanned = .error fault := by
  cases scanned with
  | error other => exact congrArg Except.error (Except.error.inj failed)
  | ok ts => cases failed

theorem bytes_append (cs ds : List Char) : bytes (cs ++ ds) = bytes cs + bytes ds := by
  induction cs with
  | nil => exact (Nat.zero_add _).symm
  | cons c cs ih => rw [List.cons_append, bytes, bytes, ih, Nat.add_assoc]

theorem bytes_ofList (cs : List Char) : bytes cs = (String.ofList cs).utf8ByteSize := by
  induction cs with
  | nil => rfl
  | cons c cs ih => rw [bytes, ih, String.ofList_cons, String.utf8ByteSize_append, String.utf8ByteSize_singleton]

theorem bytes_toList (s : String) : bytes s.toList = s.utf8ByteSize := by
  rw [bytes_ofList, String.ofList_toList]

/-- What stands before a text moves its faults and leaves its tokens. -/
theorem scan_shifted (n offset : Nat) (cs : List Char) :
    scan (n + offset) cs = (scan offset cs).mapError (ParseError.shifted n) := by
  fun_induction scan offset cs with
  | case1 offset =>
    rw [scan]
    rfl
  | case2 offset c cs blank ih => rw [scan_blank _ blank, Nat.add_assoc, ih]
  | case3 offset c cs blank starts literal unread =>
    rw [scan_misnumber _ starts rfl unread]
    rfl
  | case4 offset c cs blank starts literal value reads ih =>
    rw [scan_number _ starts rfl reads, map_mapError, ← ih, ← Nat.add_assoc]
  | case5 offset c cs blank number starts name ih =>
    rw [scan_name _ starts, map_mapError, ← ih, ← Nat.add_assoc]
  | case6 offset c cs blank number name token mark ih =>
    rw [scan_mark _ mark, map_mapError, ← ih, Nat.add_assoc]
  | case7 offset c cs blank number name mark =>
    rw [scan_stray _ blank number name mark]
    rfl

theorem blank_not_sign {w : Char} (blank : Text.isBlank w = true) : ¬ ((w = '+' || w = '-') = true) := by
  intro sign
  rw [Bool.or_eq_true, decide_eq_true_eq, decide_eq_true_eq] at sign
  rcases sign with rfl | rfl
  · cases blank
  · cases blank

section

variable {w : Char} (blank : Text.isBlank w = true) (ds : List Char)

include blank

theorem blank_ends : Ends (w :: ds) := by
  rintro c ⟨⟩
  exact blank_not_word blank

/-- No number goes on behind a blank, not even with the sign of its power. -/
theorem numberTail_cut (powered : Bool) (cs : List Char) :
    numberTail powered (cs ++ w :: ds) = ((numberTail powered cs).1, (numberTail powered cs).2 ++ w :: ds) := by
  have ends := blank_ends blank ds
  fun_induction numberTail powered cs with
  | case1 powered => exact numberTail_ends ends powered
  | case2 powered c cs starts tail rest whole ih =>
    rw [whole] at ih
    rw [List.cons_append, numberTail.eq_def]
    simp only [starts, if_true, ih]
  | case3 powered c number power =>
    rw [List.singleton_append, numberTail.eq_def]
    simp only [number, power, blank_not_sign blank, if_true, numberTail_ends ends]
    rfl
  | case4 powered c number power sign cs signed tail rest whole ih =>
    rw [whole] at ih
    rw [List.cons_append, List.cons_append, numberTail.eq_def]
    simp only [number, power, signed, if_true, ih]
    rfl
  | case5 powered c number power first cs unsigned tail rest whole ih =>
    rw [whole, List.cons_append] at ih
    rw [List.cons_append, List.cons_append, numberTail.eq_def]
    simp only [number, power, unsigned, if_true, ih]
    rfl
  | case6 powered c cs number power =>
    rw [List.cons_append, numberTail.eq_def]
    simp only [number, power]
    rfl

theorem name_cut (cs : List Char) :
    (cs ++ w :: ds).takeWhile continuesName = cs.takeWhile continuesName ∧
      (cs ++ w :: ds).dropWhile continuesName = cs.dropWhile continuesName ++ w :: ds := by
  induction cs with
  | nil =>
    have stop : ¬ continuesName w = true :=
      Bool.eq_false_iff.mp (Bool.or_eq_false_iff.mp (blank_not_word blank)).2
    exact ⟨List.takeWhile_cons_of_neg stop, List.dropWhile_cons_of_neg stop⟩
  | cons c cs ih =>
    obtain ⟨taken, left⟩ := ih
    rw [List.cons_append]
    by_cases continues : continuesName c = true
    · rw [List.takeWhile_cons_of_pos continues, List.takeWhile_cons_of_pos continues,
        List.dropWhile_cons_of_pos continues, List.dropWhile_cons_of_pos continues, taken, left]
      exact ⟨rfl, rfl⟩
    · rw [List.takeWhile_cons_of_neg continues, List.takeWhile_cons_of_neg continues,
        List.dropWhile_cons_of_neg continues, List.dropWhile_cons_of_neg continues]
      exact ⟨rfl, rfl⟩

/-- What stands before a blank is scanned as if nothing followed, and what stands behind it as if it began there. -/
theorem scan_cut (offset : Nat) (cs : List Char) :
    scan offset (cs ++ w :: ds) = followed (scan offset cs) (scan (offset + bytes (cs ++ [w])) ds) := by
  fun_induction scan offset cs with
  | case1 offset =>
    rw [List.nil_append, scan_blank offset blank, List.nil_append, bytes, bytes, Nat.add_zero]
    cases scan (offset + w.utf8Size) ds <;> rfl
  | case2 offset c cs blank' ih =>
    rw [List.cons_append, scan_blank offset blank', ih, List.cons_append, bytes, Nat.add_assoc]
  | case3 offset c cs blank' starts literal unread =>
    exact scan_misnumber offset starts (numberTail_cut blank ds false cs) unread
  | case4 offset c cs blank' starts literal value reads ih =>
    have whole : c :: cs = literal ++ (numberTail false cs).2 := (literal_append c cs).symm
    rw [List.cons_append, scan_number offset starts (numberTail_cut blank ds false cs) reads, ih, map_followed, whole,
      List.append_assoc, bytes_append literal, Nat.add_assoc]
  | case5 offset c cs blank' number starts name ih =>
    have whole : c :: cs = name ++ cs.dropWhile continuesName := (name_append c cs).symm
    obtain ⟨taken, left⟩ := name_cut blank ds cs
    rw [List.cons_append, scan_name offset starts, taken, left, ih, map_followed, whole, List.append_assoc,
      bytes_append name, Nat.add_assoc]
  | case6 offset c cs blank' number name token mark ih =>
    rw [List.cons_append, scan_mark offset mark, ih, map_followed, List.cons_append, bytes, Nat.add_assoc]
  | case7 offset c cs blank' number name mark =>
    rw [List.cons_append, scan_stray offset blank' number name mark]
    rfl

end

/-- The character stands at the offset in a text that begins at `start`. -/
def Stands (c : Char) (offset start : Nat) (cs : List Char) : Prop :=
  ∃ before after, cs = before ++ c :: after ∧ offset = start + bytes before

theorem Stands.behind {c : Char} {offset start : Nat} {rest : List Char} (taken : List Char)
    (stands : Stands c offset (start + bytes taken) rest) : Stands c offset start (taken ++ rest) := by
  obtain ⟨before, after, rfl, place⟩ := stands
  exact ⟨taken ++ before, after, (List.append_assoc ..).symm, by rw [bytes_append, place, Nat.add_assoc]⟩

/-- A character that begins no token is reported where it stands. -/
theorem stray_stands {start offset : Nat} {c : Char} {cs : List Char}
    (run : scan start cs = .error (.unexpectedChar c offset)) : Stands c offset start cs := by
  fun_induction scan start cs with
  | case1 start => cases run
  | case2 start d cs blank ih => exact (ih run).behind [d]
  | case3 start d cs blank starts literal unread => cases run
  | case4 start d cs blank starts literal value reads ih =>
    rw [← literal_append]
    exact (ih (error_of_map run)).behind literal
  | case5 start d cs blank number starts name ih =>
    rw [← name_append]
    exact (ih (error_of_map run)).behind name
  | case6 start d cs blank number name token mark ih =>
    exact (ih (error_of_map run)).behind [d]
  | case7 start d cs blank number name mark =>
    cases run
    exact ⟨[], cs, rfl, rfl⟩

end Lexeme

open Lexeme

theorem tokenize_cut {w : Char} (blank : Text.isBlank w = true) (a b : String) :
    tokenize (a ++ w.toString ++ b) =
      followed (tokenize a) ((tokenize b).mapError (.shifted (a ++ w.toString).utf8ByteSize)) := by
  have text : (a ++ w.toString ++ b).toList = a.toList ++ w :: b.toList := by simp
  have before : (a ++ w.toString).toList = a.toList ++ [w] := by simp
  unfold tokenize
  rw [text, scan_cut blank, ← before, bytes_toList, Nat.zero_add, ← scan_shifted, Nat.add_zero]

/-- The grammar is not asked before the whole text is cut into tokens, and never objects to a character. -/
theorem parse_unexpectedChar_iff {text : String} {c : Char} {offset : Nat} :
    Expr.parse text = .error (.unexpectedChar c offset) ↔ tokenize text = .error (.unexpectedChar c offset) := by
  unfold Expr.parse
  cases scanned : tokenize text with
  | error fault =>
    exact ⟨fun run => congrArg Except.error (Except.error.inj run),
      fun run => congrArg Except.error (Except.error.inj run)⟩
  | ok ts =>
    refine ⟨fun run => ?_, nofun⟩
    cases Grammar.parseTokens_stuck run

/-- Blanks cut a text into parts that are tokenized each for itself. A stray character is reported where it stands, and
before any fault of grammar. -/
theorem blanks_part_tokens :
    (∀ (a b : String) (w : Char), Text.isBlank w = true →
      tokenize (a ++ w.toString ++ b) =
        match tokenize a, tokenize b with
        | .error fault, _ => .error fault
        | .ok ts, .ok us => .ok (ts ++ us)
        | .ok _, .error fault => .error (fault.shifted (a ++ w.toString).utf8ByteSize)) ∧
    ∀ (text : String) (c : Char) (offset : Nat),
      (tokenize text = .error (.unexpectedChar c offset) →
        ∃ before after : String, text = before ++ c.toString ++ after ∧ offset = before.utf8ByteSize) ∧
      (Expr.parse text = .error (.unexpectedChar c offset) ↔ tokenize text = .error (.unexpectedChar c offset)) := by
  constructor
  · intro a b w blank
    rw [tokenize_cut blank]
    cases tokenize a <;> cases tokenize b <;> rfl
  · intro text c offset
    refine ⟨fun run => ?_, parse_unexpectedChar_iff⟩
    obtain ⟨before, after, whole, place⟩ := stray_stands run
    refine ⟨String.ofList before, String.ofList after, String.toList_inj.mp ?_, ?_⟩
    · rw [whole]
      simp
    · rw [place, Nat.zero_add, bytes_ofList]

/-- Behind a letter of two bytes and a blank of three. The parenthesis that opens nothing is not what is reported. -/
theorem wideBlank_parts_tokens :
    Text.isBlank '\u3000' = true ∧ tokenize "é" = .ok [.identifier "é"] ∧
      tokenize ") $" = .error (.unexpectedChar '$' 2) ∧
      Expr.parse ("é" ++ '\u3000'.toString ++ ") $") = .error (.unexpectedChar '$' 7) := by
  have blank : Text.isBlank '\u3000' = true := by decide +kernel
  have first : tokenize "é" = .ok [.identifier "é"] := by decide +kernel
  have second : tokenize ") $" = .error (.unexpectedChar '$' 2) := by decide +kernel
  obtain ⟨cut, strays⟩ := blanks_part_tokens
  have whole := cut "é" ") $" '\u3000' blank
  rw [first, second] at whole
  exact ⟨blank, first, second, (strays _ '$' 7).2.mpr whole⟩

end EulerFlow
