import EulerFlow.Proofs.WrittenNumber
import Mathlib.Data.List.Chain

namespace EulerFlow

namespace Text

theorem exists_range {ranges : List (Nat × Nat)} {c : Char} (member : inRanges ranges c = true) :
    ∃ range ∈ ranges, range.1 ≤ c.toNat ∧ c.toNat ≤ range.2 := by
  induction ranges with
  | nil => cases member
  | cons range ranges ih =>
    simp only [inRanges, Bool.and_eq_true, Bool.or_eq_true, decide_eq_true_eq] at member
    obtain ⟨low, high | further⟩ := member
    · exact ⟨range, List.mem_cons_self .., low, high⟩
    · obtain ⟨other, among, bounds⟩ := ih further
      exact ⟨other, List.mem_cons_of_mem _ among, bounds⟩

/-- All the characters of white space. They are few enough to be tried one by one. -/
def blanks : List Char :=
  blankRanges.flatMap fun range => (List.range' range.1 (range.2 - range.1 + 1)).map Char.ofNat

theorem mem_blanks {c : Char} (blank : isBlank c = true) : c ∈ blanks := by
  obtain ⟨range, among, low, high⟩ := exists_range blank
  refine List.mem_flatMap.mpr ⟨range, among, List.mem_map.mpr ⟨c.toNat, ?_, Char.ofNat_toNat c⟩⟩
  rw [List.mem_range'_1]
  omega

end Text

/-- Numbers and names, which run together where nothing stands between them. -/
def Token.isWord : Token → Bool
  | .number _ => true
  | .identifier _ => true
  | _ => false

/-- The tokenizer can take the whole text for one name. -/
def IsName (name : String) : Prop :=
  ∃ c cs, name.toList = c :: cs ∧ Lexeme.startsName c = true ∧ ∀ d ∈ cs, Lexeme.continuesName d = true

/-- Numbers without a sign, names, and all marks can be written. -/
def Token.Writable : Token → Prop
  | .number value => Unsigned value
  | .identifier name => IsName name
  | _ => True

namespace Lexeme

theorem blank_not_word {c : Char} (blank : Text.isBlank c = true) : isWord c = false := by
  have none : Text.blanks.all (fun c => !isWord c) = true := by decide +kernel
  simpa using List.all_eq_true.mp none c (Text.mem_blanks blank)

/-- A mark ends every word before it and is no white space, so the scanner comes to see it. -/
theorem mark_not_word {c : Char} {t : Token} (mark : Token.ofMark? c = some t) :
    isWord c = false ∧ Text.isBlank c = false := by
  unfold Token.ofMark? at mark
  split at mark <;> cases mark
  all_goals exact ⟨by decide +kernel, by decide +kernel⟩

theorem word_not_blank {c : Char} (word : isWord c = true) : Text.isBlank c = false := by
  cases blank : Text.isBlank c with
  | false => rfl
  | true => rw [blank_not_word blank] at word; cases word

theorem startsNumber_not_name {c : Char} (starts : startsNumber c = true) : startsName c = false :=
  of_startsNumber (p := fun c => startsName c = false) (by decide +kernel) starts

theorem startsName_word {c : Char} (starts : startsName c = true) : isWord c = true := by
  unfold startsName at starts
  unfold isWord continuesName
  grind

/-- A name is taken in as far as it goes. -/
theorem takeWhile_name {name rest : List Char} (continues : ∀ c ∈ name, continuesName c = true) (ends : Ends rest) :
    (name ++ rest).takeWhile continuesName = name ∧ (name ++ rest).dropWhile continuesName = rest := by
  rw [List.takeWhile_append_of_pos continues, List.dropWhile_append_of_pos continues]
  cases rest with
  | nil => exact ⟨List.append_nil name, rfl⟩
  | cons c rest =>
    have stop : ¬ continuesName c = true :=
      Bool.eq_false_iff.mp (Bool.or_eq_false_iff.mp (ends c rfl)).2
    rw [List.takeWhile_cons_of_neg stop, List.dropWhile_cons_of_neg stop]
    exact ⟨List.append_nil name, rfl⟩

/-- How a token is written: a number as any literal that begins with a digit or a point and reads as its value. -/
inductive Spells : Token → List Char → Prop
  | number {c : Char} {cs : List Char} {value : Float} (starts : startsNumber c = true)
      (reads : Decimal.read? (c :: cs) = some value) : Spells (.number value) (c :: cs)
  | name {c : Char} {cs : List Char} (starts : startsName c = true) (continues : ∀ d ∈ cs, continuesName d = true) :
      Spells (.identifier (String.ofList (c :: cs))) (c :: cs)
  | mark {c : Char} {t : Token} (mark : Token.ofMark? c = some t) : Spells t [c]

/-- How tokens are written one after another, with blanks wherever one likes and nowhere of necessity. -/
inductive Spelling : List Token → List Char → Prop
  | done : Spelling [] []
  | blank {ts : List Token} {c : Char} {cs : List Char} (blank : Text.isBlank c = true) (others : Spelling ts cs) :
      Spelling ts (c :: cs)
  | token {t : Token} {ts : List Token} {word cs : List Char} (spells : Spells t word) (others : Spelling ts cs) :
      Spelling (t :: ts) (word ++ cs)

/-- No two words stand next to each other. -/
def Separated (ts : List Token) : Prop :=
  ts.IsChain fun t u => ¬ (t.isWord = true ∧ u.isWord = true)

theorem Separated.nil : Separated [] :=
  List.isChain_nil

theorem Separated.single (t : Token) : Separated [t] :=
  List.isChain_singleton t

/-- A mark keeps what is before it from what is behind it. -/
theorem Separated.join {ts us : List Token} {mark : Token} (before : Separated ts) (noWord : mark.isWord = false)
    (after : Separated us) : Separated (ts ++ mark :: us) := by
  refine List.isChain_append.mpr ⟨before, List.isChain_cons.mpr ⟨?_, after⟩, ?_⟩
  · rintro u _ ⟨word, _⟩
    rw [noWord] at word
    cases word
  · rintro t _ u first ⟨_, word⟩
    cases first
    rw [noWord] at word
    cases word

theorem ofMark?_not_word {c : Char} {t : Token} (mark : Token.ofMark? c = some t) : t.isWord = false := by
  unfold Token.ofMark? at mark
  split at mark <;> cases mark
  all_goals rfl

theorem Spelling.ends {ts : List Token} {cs : List Char} (spelling : Spelling ts cs)
    (noWord : ∀ t ∈ ts.head?, t.isWord = false) : Ends cs := by
  cases spelling with
  | done => nofun
  | blank blank others =>
    rintro c ⟨⟩
    exact blank_not_word blank
  | token spells others =>
    cases spells with
    | number starts reads => cases noWord _ rfl
    | name starts continues => cases noWord _ rfl
    | mark mark =>
      rintro c ⟨⟩
      exact (mark_not_word mark).1

section

variable {c : Char} {cs : List Char} (offset : Nat)

theorem scan_blank (blank : Text.isBlank c = true) : scan offset (c :: cs) = scan (offset + c.utf8Size) cs := by
  rw [scan, if_pos blank]

-- The first character of a token decides what is scanned: none begins two kinds of token, and no blank begins one.

theorem scan_number {tail rest : List Char} {value : Float} (starts : startsNumber c = true)
    (split : numberTail false cs = (tail, rest)) (reads : Decimal.read? (c :: tail) = some value) :
    scan offset (c :: cs) = (scan (offset + bytes (c :: tail)) rest).map (.number value :: ·) := by
  have blank := word_not_blank (by rw [isWord, starts, Bool.true_or])
  rw [scan, if_neg (Bool.eq_false_iff.mp blank), if_pos starts, split]
  simp only [reads]

theorem scan_misnumber {tail rest : List Char} (starts : startsNumber c = true)
    (split : numberTail false cs = (tail, rest)) (unread : Decimal.read? (c :: tail) = none) :
    scan offset (c :: cs) = .error (.invalidNumber (String.ofList (c :: tail))) := by
  have blank := word_not_blank (by rw [isWord, starts, Bool.true_or])
  rw [scan, if_neg (Bool.eq_false_iff.mp blank), if_pos starts, split]
  simp only [unread]

theorem scan_name (starts : startsName c = true) :
    scan offset (c :: cs) =
      (scan (offset + bytes (c :: cs.takeWhile continuesName)) (cs.dropWhile continuesName)).map
        (.identifier (String.ofList (c :: cs.takeWhile continuesName)) :: ·) := by
  have blank := word_not_blank (startsName_word starts)
  have number : ¬ startsNumber c = true := fun digit => by
    rw [startsNumber_not_name digit] at starts
    cases starts
  rw [scan, if_neg (Bool.eq_false_iff.mp blank), if_neg number, if_pos starts]

theorem scan_mark {t : Token} (mark : Token.ofMark? c = some t) :
    scan offset (c :: cs) = (scan (offset + c.utf8Size) cs).map (t :: ·) := by
  obtain ⟨noWord, blank⟩ := mark_not_word mark
  have number : ¬ startsNumber c = true := Bool.eq_false_iff.mp (Bool.or_eq_false_iff.mp noWord).1
  have name : ¬ startsName c = true := fun starts => by
    rw [startsName_word starts] at noWord
    cases noWord
  rw [scan, if_neg (Bool.eq_false_iff.mp blank), if_neg number, if_neg name, mark]

/-- What is neither blank nor begins any token is an error at its own place. -/
theorem scan_stray (blank : ¬ Text.isBlank c = true) (number : ¬ startsNumber c = true) (name : ¬ startsName c = true)
    (mark : Token.ofMark? c = none) : scan offset (c :: cs) = .error (.unexpectedChar c offset) := by
  rw [scan, if_neg blank, if_neg number, if_neg name, mark]

end

/-- A word is read as its token where nothing behind it belongs to it. -/
theorem Spells.scan_append {t : Token} {word : List Char} (spells : Spells t word) {rest : List Char}
    (ends : t.isWord = true → Ends rest) (offset : Nat) :
    scan offset (word ++ rest) = (scan (offset + bytes word) rest).map (t :: ·) := by
  cases spells with
  | @number c digits value starts reads =>
    obtain ⟨d, unsigned, _⟩ := Option.map_eq_some_iff.mp ((read?_literal starts).symm.trans reads)
    exact scan_number offset starts (numberTail_literal starts unsigned (ends rfl)) reads
  | @name c letters starts continues =>
    obtain ⟨taken, left⟩ := takeWhile_name continues (ends rfl)
    rw [List.cons_append, scan_name offset starts, taken, left]
  | mark mark =>
    rw [List.singleton_append, scan_mark offset mark]
    rfl

/-- What is written without words that run together is read as it was meant. -/
theorem scan_spelling {ts : List Token} {cs : List Char} (spelling : Spelling ts cs) (separated : Separated ts)
    (offset : Nat) : scan offset cs = .ok ts := by
  induction spelling generalizing offset with
  | done => rw [scan]
  | blank blank others ih => rw [scan_blank offset blank, ih separated]
  | @token t ts word cs spells others ih =>
    obtain ⟨apart, tailSeparated⟩ := List.isChain_cons.mp separated
    have ends (wordy : t.isWord = true) : Ends cs :=
      others.ends fun u first => Bool.eq_false_iff.mpr fun word => apart u first ⟨wordy, word⟩
    rw [spells.scan_append ends offset, ih tailSeparated]
    rfl

theorem tokens_of_map {scanned : Except ParseError (List Token)} {t : Token} {ts : List Token}
    (run : scanned.map (t :: ·) = .ok ts) : ∃ others, scanned = .ok others ∧ t :: others = ts := by
  cases scanned with
  | error fault => cases run
  | ok others => exact ⟨others, rfl, Except.ok.inj run⟩

theorem literal_append (c : Char) (cs : List Char) :
    (c :: (numberTail false cs).1) ++ (numberTail false cs).2 = c :: cs :=
  congrArg (c :: ·) (numberTail_append false cs)

theorem name_append (c : Char) (cs : List Char) :
    (c :: cs.takeWhile continuesName) ++ cs.dropWhile continuesName = c :: cs :=
  congrArg (c :: ·) List.takeWhile_append_dropWhile

/-- Every text that has tokens is a way to write them. -/
theorem spelling_of_scan {offset : Nat} {cs : List Char} {ts : List Token} (run : scan offset cs = .ok ts) :
    Spelling ts cs := by
  fun_induction scan offset cs generalizing ts with
  | case1 offset =>
    cases run
    exact .done
  | case2 offset c cs blank ih => exact .blank blank (ih run)
  | case3 offset c cs blank starts reads => cases run
  | case4 offset c cs blank starts =>
    rename_i value reads ih
    obtain ⟨others, scanned, rfl⟩ := tokens_of_map run
    rw [← literal_append]
    exact .token (.number starts reads) (ih scanned)
  | case5 offset c cs blank number starts =>
    rename_i ih
    obtain ⟨others, scanned, rfl⟩ := tokens_of_map run
    rw [← name_append]
    exact .token (.name starts (List.all_eq_true.mp List.all_takeWhile)) (ih scanned)
  | case6 offset c cs blank number name token mark ih =>
    obtain ⟨others, scanned, rfl⟩ := tokens_of_map run
    exact .token (.mark mark) (ih scanned)
  | case7 offset c cs blank number name mark => cases run

/-- Every number without a sign has a literal, however many digits that takes. -/
theorem exists_literal {value : Float} (unsigned : Unsigned value) : ∃ word, Spells (.number value) word := by
  obtain ⟨d, rfl⟩ := unsigned.exists_decimal
  have read := d.readUnsigned?_literal
  obtain ⟨c, digits, written⟩ := List.exists_cons_of_ne_nil (Nat.toDigits_ne_nil (n := d.digits) (b := 10))
  have whole : d.literal = c :: (digits ++ 'e' :: Decimal.powerChars d.exponent) :=
    congrArg (· ++ 'e' :: Decimal.powerChars d.exponent) written
  have among : c ∈ Decimal.digitChars d.digits := by
    rw [Decimal.digitChars, written]
    exact List.mem_cons_self ..
  have starts : startsNumber c = true := digit_startsNumber (Decimal.isDigit_digitChars d.digits c among)
  rw [whole] at read
  exact ⟨_, .number starts (by rw [read?_literal starts, read]; rfl)⟩

theorem exists_name {name : String} (named : IsName name) : ∃ word, Spells (.identifier name) word := by
  obtain ⟨c, cs, whole, starts, continues⟩ := named
  refine ⟨c :: cs, ?_⟩
  rw [← String.ofList_toList (s := name), whole]
  exact .name starts continues

theorem exists_spells {t : Token} (writable : t.Writable) : ∃ word, Spells t word := by
  cases t with
  | number value => exact exists_literal writable
  | identifier name => exact exists_name writable
  | plus => exact ⟨['+'], .mark rfl⟩
  | minus => exact ⟨['-'], .mark rfl⟩
  | star => exact ⟨['*'], .mark rfl⟩
  | slash => exact ⟨['/'], .mark rfl⟩
  | caret => exact ⟨['^'], .mark rfl⟩
  | opening => exact ⟨['('], .mark rfl⟩
  | closing => exact ⟨[')'], .mark rfl⟩
  | comma => exact ⟨[','], .mark rfl⟩

theorem Spells.writable {t : Token} {word : List Char} (spells : Spells t word) : t.Writable := by
  cases spells with
  | number starts reads =>
    rw [read?_literal starts] at reads
    obtain ⟨d, _, rfl⟩ := Option.map_eq_some_iff.mp reads
    exact d.toFloat_unsigned
  | name starts continues => exact ⟨_, _, String.toList_ofList, starts, continues⟩
  | mark mark =>
    have noWord := ofMark?_not_word mark
    cases t with
    | number value => cases noWord
    | identifier name => cases noWord
    | _ => trivial

/-- A token that was read from a text can be written. -/
theorem Spelling.writable {ts : List Token} {cs : List Char} (spelling : Spelling ts cs) : ∀ t ∈ ts, t.Writable := by
  induction spelling with
  | done => nofun
  | blank blank others ih => exact ih
  | token spells others ih =>
    intro u member
    rcases List.mem_cons.mp member with rfl | later
    · exact spells.writable
    · exact ih u later

/-- Tokens that can be written can be written one after another. -/
theorem exists_spelling {ts : List Token} (writable : ∀ t ∈ ts, t.Writable) : ∃ cs, Spelling ts cs := by
  induction ts with
  | nil => exact ⟨[], .done⟩
  | cons t ts ih =>
    obtain ⟨word, spells⟩ := exists_spells (writable t (List.mem_cons_self ..))
    obtain ⟨cs, others⟩ := ih fun u member => writable u (List.mem_cons_of_mem _ member)
    exact ⟨word ++ cs, .token spells others⟩

end Lexeme

end EulerFlow
