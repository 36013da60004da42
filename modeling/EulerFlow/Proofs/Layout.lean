import EulerFlow.Proofs.Numeral
import EulerFlow.Proofs.Spelling

namespace EulerFlow

open Lexeme

/-- A token as it stands in a text. -/
inductive Word where
  | number (cs : List Char) (numeral : IsNumeral cs)
  | name (c : Char) (cs : List Char) (starts : startsName c = true) (continues : ∀ d ∈ cs, continuesName d = true)
  | mark (c : Char) (known : (Token.ofMark? c).isSome = true)

namespace Word

/-- The characters that the word is written with. -/
def chars : Word → List Char
  | number cs _ => cs
  | name c cs _ _ => c :: cs
  | mark c _ => [c]

/-- A number has the value that is read from its characters. -/
def token : Word → Token
  | number cs numeral => .number ((Decimal.read? cs).get numeral.reads)
  | name c cs _ _ => .identifier (String.ofList (c :: cs))
  | mark c known => (Token.ofMark? c).get known

/-- Not both are numbers or names. -/
def Apart (v w : Word) : Prop :=
  ¬ (v.token.isWord = true ∧ w.token.isWord = true)

/-- What can follow what in a text that is accepted, with nothing between them: also a name a number, and a number
that begins with its point a name. -/
inductive Meets : Word → Word → Prop
  | apart {v w : Word} (apart : v.Apart w) : Meets v w
  | numberName {digits cs : List Char} {c : Char} (numeral : IsNumeral digits) (starts : startsName c = true)
      (continues : ∀ d ∈ cs, continuesName d = true) : Meets (.number digits numeral) (.name c cs starts continues)
  | nameFraction {cs fraction : List Char} {c : Char} (starts : startsName c = true)
      (continues : ∀ d ∈ cs, continuesName d = true) (numeral : IsNumeral ('.' :: fraction)) :
      Meets (.name c cs starts continues) (.number ('.' :: fraction) numeral)

theorem spells (w : Word) : Spells w.token w.chars := by
  cases w with
  | number cs numeral =>
    obtain ⟨c, rest, rfl, starts⟩ := numeral.starts
    exact .number starts (Option.some_get _).symm
  | name c cs starts continues => exact .name starts continues
  | mark c known => exact .mark (Option.some_get known).symm

theorem exists_first (w : Word) : ∃ c rest, w.chars = c :: rest := by
  cases w with
  | number cs numeral =>
    obtain ⟨c, rest, shape, _⟩ := numeral.starts
    exact ⟨c, rest, shape⟩
  | name c cs starts continues => exact ⟨c, cs, rfl⟩
  | mark c known => exact ⟨c, [], rfl⟩

theorem mark_isWord {c : Char} {known : (Token.ofMark? c).isSome = true} : (mark c known).token.isWord = false :=
  ofMark?_not_word (Option.some_get known).symm

theorem apart_mark {v : Word} {c : Char} {known : (Token.ofMark? c).isSome = true} : v.Apart (mark c known) :=
  fun both => Bool.false_ne_true (mark_isWord.symm.trans both.2)

theorem mark_apart {w : Word} {c : Char} {known : (Token.ofMark? c).isSome = true} : (mark c known).Apart w :=
  fun both => Bool.false_ne_true (mark_isWord.symm.trans both.1)

end Word

/-- White space of any length. -/
structure Gap where
  chars : List Char
  blank : ∀ c ∈ chars, Text.isBlank c = true

/-- A word and the white space behind it. -/
structure Placed where
  word : Word
  gap : Gap

/-- The characters of the word and of what is behind it. -/
def Placed.chars (p : Placed) : List Char :=
  p.word.chars ++ p.gap.chars

/-- The second can stand behind the first: white space stands between them, or the words can meet. -/
def Placed.Before (meets : Word → Word → Prop) (p q : Placed) : Prop :=
  p.gap.chars = [] → meets p.word q.word

/-- A text as the white space that it begins with and its words. -/
structure Layout where
  lead : Gap
  placed : List Placed

namespace Layout

/-- All the characters of the text. -/
def chars (l : Layout) : List Char :=
  l.lead.chars ++ l.placed.flatMap Placed.chars

/-- The text that is laid out so. -/
def text (l : Layout) : String :=
  String.ofList l.chars

/-- The tokens that the words stand for, in order. -/
def tokens (l : Layout) : List Token :=
  l.placed.map fun p => p.word.token

/-- Where nothing stands between two words, they are of a kind that allows it. -/
def Spaced (l : Layout) (meets : Word → Word → Prop) : Prop :=
  l.placed.IsChain (Placed.Before meets)

theorem scan_blanks {blanks : List Char} (blank : ∀ c ∈ blanks, Text.isBlank c = true) (offset : Nat)
    (cs : List Char) : scan offset (blanks ++ cs) = scan (offset + bytes blanks) cs := by
  induction blanks generalizing offset with
  | nil => rfl
  | cons c blanks ih =>
    obtain ⟨first, others⟩ := List.forall_mem_cons.mp blank
    rw [List.cons_append, scan_blank offset first, ih others, bytes, Nat.add_assoc]

/-- Nothing that stands behind a number or a name goes on with it. -/
theorem ends_behind {p : Placed} {placed : List Placed} (spaced : (p :: placed).IsChain (Placed.Before Word.Apart))
    (wordy : p.word.token.isWord = true) : Ends (p.gap.chars ++ placed.flatMap Placed.chars) := by
  obtain ⟨word, blanks, blank⟩ := p
  cases blanks with
  | cons c blanks =>
    rintro d ⟨⟩
    exact blank_not_word (blank c (List.mem_cons_self ..))
  | nil =>
    cases placed with
    | nil => nofun
    | cons q placed =>
      obtain ⟨next, gap⟩ := q
      have apart : word.Apart next := (List.isChain_cons_cons.mp spaced).1 rfl
      cases next with
      | number cs numeral => exact absurd ⟨wordy, rfl⟩ apart
      | name c cs starts continues => exact absurd ⟨wordy, rfl⟩ apart
      | mark c known =>
        rintro d ⟨⟩
        exact (mark_not_word (Option.some_get known).symm).1

/-- Words that are kept apart are scanned one by one. -/
theorem scan_placed {placed : List Placed} (spaced : placed.IsChain (Placed.Before Word.Apart)) (offset : Nat) :
    scan offset (placed.flatMap Placed.chars) = .ok (placed.map fun p => p.word.token) := by
  induction placed generalizing offset with
  | nil => exact scan.eq_1 offset
  | cons p placed ih =>
    rw [List.flatMap_cons, Placed.chars, List.append_assoc, p.word.spells.scan_append (ends_behind spaced),
      scan_blanks p.gap.blank, ih spaced.of_cons]
    rfl

theorem tokenize_text {l : Layout} (spaced : l.Spaced Word.Apart) : tokenize l.text = .ok l.tokens := by
  rw [tokenize, text, String.toList_ofList, chars, scan_blanks l.lead.blank, scan_placed spaced]
  rfl

/-- The layout with one more blank in front. -/
def withBlank (c : Char) (blank : Text.isBlank c = true) (l : Layout) : Layout where
  lead := ⟨c :: l.lead.chars, List.forall_mem_cons.mpr ⟨blank, l.lead.blank⟩⟩
  placed := l.placed

/-- The layout with one more word in front. -/
def withWord (word : Word) (l : Layout) : Layout where
  lead := ⟨[], List.forall_mem_nil _⟩
  placed := ⟨word, l.lead⟩ :: l.placed

theorem chars_withWord (word : Word) (l : Layout) : (l.withWord word).chars = word.chars ++ l.chars := by
  rw [chars, withWord, List.nil_append, List.flatMap_cons, Placed.chars, List.append_assoc]
  rfl

/-- What a word meets begins where its own characters end. -/
theorem spaced_withWord {meets : Word → Word → Prop} {word : Word} {l : Layout} (spaced : l.Spaced meets)
    (next : ∀ w : Word, w.chars.head? = l.chars.head? → meets word w) : (l.withWord word).Spaced meets := by
  refine List.isChain_cons.mpr ⟨fun p first touching => next p.word ?_, spaced⟩
  obtain ⟨c, rest, shape⟩ := p.word.exists_first
  obtain ⟨others, placed⟩ := List.head?_eq_some_iff.mp first
  change l.lead.chars = [] at touching
  rw [chars, touching, placed, List.nil_append, List.flatMap_cons, Placed.chars, shape]
  rfl

end Layout

namespace Lexeme

/-- A number is as long as it can be, so no digit or point comes right behind it. -/
theorem numberTail_stops (powered : Bool) (cs : List Char) :
    ∀ c ∈ (numberTail powered cs).2.head?, startsNumber c = false := by
  fun_induction numberTail powered cs with
  | case1 powered => rintro d ⟨⟩
  | case2 powered c cs starts tail rest whole ih => rwa [whole] at ih
  | case3 powered c number power => rintro d ⟨⟩
  | case4 powered c number power sign cs signed tail rest whole ih => rwa [whole] at ih
  | case5 powered c number power first cs unsigned tail rest whole ih => rwa [whole] at ih
  | case6 powered c cs number power =>
    rintro d ⟨⟩
    exact Bool.eq_false_iff.mpr number

theorem name_stops (cs : List Char) : ∀ c ∈ (cs.dropWhile continuesName).head?, continuesName c = false := by
  intro c first
  have stop := List.head?_dropWhile_not continuesName cs
  rwa [Option.mem_def.mp first] at stop

theorem startsName_continues {c : Char} (starts : startsName c = true) : continuesName c = true := by
  unfold startsName at starts
  unfold continuesName
  grind

/-- The point is the only character of numbers that no name goes on with. -/
theorem point_of_startsNumber {c : Char} (starts : startsNumber c = true) (stops : continuesName c = false) : c = '.' :=
  of_startsNumber (p := fun c => startsNumber c = true → continuesName c = false → c = '.') (by decide +kernel)
    starts starts stops

end Lexeme

namespace Word

variable {w : Word}

/-- Behind a number there may be a name or a mark. Another number would begin with a digit or a point, and so belong
to the first. -/
theorem meets_number {digits : List Char} {numeral : IsNumeral digits}
    (stops : ∀ c ∈ w.chars.head?, startsNumber c = false) : Meets (.number digits numeral) w := by
  cases w with
  | number cs other =>
    obtain ⟨c, rest, rfl, starts⟩ := other.starts
    rw [stops c rfl] at starts
    cases starts
  | name c cs starts continues => exact .numberName numeral starts continues
  | mark c known => exact .apart apart_mark

theorem meets_name {c : Char} {cs : List Char} {starts : startsName c = true}
    {continues : ∀ d ∈ cs, continuesName d = true} (stops : ∀ c ∈ w.chars.head?, continuesName c = false) :
    Meets (.name c cs starts continues) w := by
  cases w with
  | number digits numeral =>
    obtain ⟨d, rest, rfl, startsNumber⟩ := numeral.starts
    obtain rfl := point_of_startsNumber startsNumber (stops d rfl)
    exact .nameFraction starts continues numeral
  | name d ds starts' continues' =>
    have goesOn := startsName_continues starts'
    rw [stops d rfl] at goesOn
    cases goesOn
  | mark c known => exact .apart apart_mark

end Word

namespace Layout

/-- What is accepted is a text of words with white space between them, but that some words do without. -/
theorem exists_layout {offset : Nat} {cs : List Char} {ts : List Token} (run : scan offset cs = .ok ts) :
    ∃ l : Layout, l.Spaced Word.Meets ∧ l.chars = cs ∧ l.tokens = ts := by
  fun_induction scan offset cs generalizing ts with
  | case1 offset =>
    cases run
    exact ⟨⟨⟨[], List.forall_mem_nil _⟩, []⟩, List.isChain_nil, rfl, rfl⟩
  | case2 offset c cs blank ih =>
    obtain ⟨l, spaced, rfl, rfl⟩ := ih run
    exact ⟨l.withBlank c blank, spaced, rfl, rfl⟩
  | case3 offset c cs blank starts literal => cases run
  | case4 offset c cs blank starts literal value reads =>
    rename_i ih
    obtain ⟨others, scanned, rfl⟩ := tokens_of_map run
    obtain ⟨l, spaced, chars, rfl⟩ := ih scanned
    have numeral := (isSome_read?_iff starts).mp (Option.isSome_of_eq_some reads)
    refine ⟨l.withWord (.number _ numeral), spaced_withWord spaced fun w same => ?_, ?_, ?_⟩
    · rw [chars] at same
      exact Word.meets_number (same ▸ numberTail_stops false cs)
    · rw [chars_withWord, chars]
      exact literal_append c cs
    · exact congrArg (Token.number · :: l.tokens) (Option.get_of_eq_some _ reads)
  | case5 offset c cs blank number starts name =>
    rename_i ih
    obtain ⟨others, scanned, rfl⟩ := tokens_of_map run
    obtain ⟨l, spaced, chars, rfl⟩ := ih scanned
    have continues := List.all_eq_true.mp (List.all_takeWhile (p := continuesName) (l := cs))
    refine ⟨l.withWord (.name c _ starts continues), spaced_withWord spaced fun w same => ?_, ?_, rfl⟩
    · rw [chars] at same
      exact Word.meets_name (same ▸ name_stops cs)
    · rw [chars_withWord, chars]
      exact name_append c cs
  | case6 offset c cs blank number name token mark ih =>
    obtain ⟨others, scanned, rfl⟩ := tokens_of_map run
    obtain ⟨l, spaced, rfl, rfl⟩ := ih scanned
    refine ⟨l.withWord (.mark c (Option.isSome_of_eq_some mark)), spaced_withWord spaced fun w _ => ?_, ?_, ?_⟩
    · exact .apart Word.mark_apart
    · exact chars_withWord _ l
    · exact congrArg (· :: l.tokens) (Option.get_of_eq_some _ mark)
  | case7 offset c cs blank number name mark => cases run

end Layout

/-- A text of words with white space between those that would run together is tokenized into just these words, and
every text that is tokenized is such a text, but for a name directly behind a number or a number that begins with its
point directly behind a name. -/
theorem tokenize_inverts_layouts :
    (∀ l : Layout, l.Spaced Word.Apart → tokenize l.text = .ok l.tokens) ∧
    ∀ (text : String) (ts : List Token), tokenize text = .ok ts →
      ∃ l : Layout, l.Spaced Word.Meets ∧ l.text = text ∧ l.tokens = ts := by
  refine ⟨fun l => Layout.tokenize_text, fun text ts run => ?_⟩
  obtain ⟨l, spaced, chars, tokens⟩ := Layout.exists_layout run
  refine ⟨l, spaced, ?_, tokens⟩
  rw [Layout.text, chars, String.ofList_toList]

example : tokenize "2x.5" = .ok [.number 2, .identifier "x", .number 0.5] := by decide +kernel

theorem isNumeral_thousandth : IsNumeral ['1', '.', 'e', '-', '3'] := by
  have some (c : Char) (digit : c.isDigit = true) : IsDigits [c] :=
    ⟨List.cons_ne_nil c [], List.forall_mem_singleton.mpr digit⟩
  exact .scaled (.pointed (some '1' rfl) (List.forall_mem_nil _) : IsMantissa ['1', '.'])
    (.power (.inl rfl) .minus (some '3' rfl))

theorem isNumeral_half : IsNumeral ['.', '5'] :=
  .scaled (.fraction ⟨List.cons_ne_nil '5' [], List.forall_mem_singleton.mpr rfl⟩ : IsMantissa ['.', '5']) .none

/-- The blank keeps the number and the name apart, the mark the name and the other number. -/
def denseLayout : Layout where
  lead := ⟨['\t'], List.forall_mem_singleton.mpr (by decide +kernel)⟩
  placed := [
    ⟨.number ['1', '.', 'e', '-', '3'] isNumeral_thousandth,
      ⟨[' '], List.forall_mem_singleton.mpr (by decide +kernel)⟩⟩,
    ⟨.name 'e' ['2'] (by decide +kernel) (List.forall_mem_singleton.mpr (by decide +kernel)),
      ⟨[], List.forall_mem_nil _⟩⟩,
    ⟨.mark '-' rfl, ⟨[], List.forall_mem_nil _⟩⟩,
    ⟨.number ['.', '5'] isNumeral_half, ⟨[], List.forall_mem_nil _⟩⟩]

theorem denseLayout_tokens :
    denseLayout.Spaced Word.Apart ∧
      tokenize "\t1.e-3 e2-.5" = .ok [.number 1e-3, .identifier "e2", .minus, .number 0.5] := by
  have spaced : denseLayout.Spaced Word.Apart :=
    .cons_cons nofun (.cons_cons (fun _ => Word.apart_mark) (.cons_cons (fun _ => Word.mark_apart) (.singleton _)))
  have text : denseLayout.text = "\t1.e-3 e2-.5" := by decide +kernel
  have tokens : denseLayout.tokens = [.number 1e-3, .identifier "e2", .minus, .number 0.5] := by decide +kernel
  obtain ⟨inverted, _⟩ := tokenize_inverts_layouts
  refine ⟨spaced, ?_⟩
  rw [← text, inverted denseLayout spaced, tokens]

end EulerFlow
