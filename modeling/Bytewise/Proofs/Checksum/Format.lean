import Bytewise.Checksum.Listing
import Bytewise.Proofs.Numeral

/-!
# The format of a listing

A line makes a claim if and only if it consists of one to eight hexadecimal digits, two spaces, a
name and any number of line ends (`CheckLine.parse_eq_ok_iff`); the name is not empty, holds no line
feed, and does not end in a line end itself. There is only one way to cut a line so, since a space
is no digit and the line ends reach as far as they can.

The line that is written for a digest is in the format, and reads back as the digest's name and
checksum, also with line ends behind it (`CheckLine.parse_line_append`). `CheckLine.parse_exactly`
says both in terms of what the digits stand for.
-/

namespace Bytewise

namespace Text

variable {p : Symbol → Bool} {t ends : Text}

/-- What is dropped from the end satisfies the test, and what stays does not end in it. -/
theorem eq_dropEndWhile_append (p : Symbol → Bool) (t : Text) :
    ∃ ends, t = t.dropEndWhile p ++ ends ∧ (∀ s ∈ ends, p s = true) ∧
      ∀ s, (t.dropEndWhile p).getLast? = some s → p s = false := by
  refine ⟨(t.reverse.takeWhile p).reverse, ?_, ?_, ?_⟩
  · rw [dropEndWhile, ← List.reverse_append, List.takeWhile_append_dropWhile, List.reverse_reverse]
  · intro s member
    exact List.all_eq_true.mp List.all_takeWhile s (List.mem_reverse.mp member)
  · intro s last
    rw [dropEndWhile, List.getLast?_reverse] at last
    have first := List.head?_dropWhile_not p t.reverse
    rw [last] at first
    simpa using first

/-- A text that does not end in the test is what stays when symbols of the test are behind it. -/
theorem dropEndWhile_append (all : ∀ s ∈ ends, p s = true)
    (last : ∀ s, t.getLast? = some s → p s = false) : (t ++ ends).dropEndWhile p = t := by
  rw [dropEndWhile, List.reverse_append, List.dropWhile_append_of_pos]
  · have kept : t.reverse.dropWhile p = t.reverse := by
      cases begins : t.reverse with
      | nil => rfl
      | cons s rest =>
          have : p s = false := last s (by rw [← List.head?_reverse, begins]; rfl)
          simp [this]
    rw [kept, List.reverse_reverse]
  · intro s member
    exact all s (List.mem_reverse.mp member)

end Text

namespace CheckLine

variable {line digits name ends : Text} {c : CheckLine}

def hexValue (digits : Text) : Nat := Numeral.value 16 (digits.filterMap Symbol.char?)

structure Written (line digits name ends : Text) : Prop where
  whole : line = digits ++ (Text.ofString "  " ++ name) ++ ends
  digits_hex : ∀ s ∈ digits, isHexDigit s = true
  digits_length : 1 ≤ digits.length ∧ digits.length ≤ 8
  name_ne_nil : name ≠ []
  name_no_feed : .char '\n' ∉ name
  name_last : ∀ s, name.getLast? = some s → isLineEnd s = false
  ends_all : ∀ s ∈ ends, isLineEnd s = true

/-- A line ends as its name does. -/
theorem getLast?_append_name (inhabited : name ≠ []) (digits : Text) :
    (digits ++ (Text.ofString "  " ++ name)).getLast? = name.getLast? := by
  rw [List.getLast?_append, List.getLast?_append, List.getLast?_eq_some_getLast inhabited,
    Option.some_or, Option.some_or]

/-- A line without its line ends. -/
theorem Written.body (written : Written line digits name ends) :
    line.dropEndWhile isLineEnd = digits ++ (Text.ofString "  " ++ name) := by
  rw [written.whole]
  apply Text.dropEndWhile_append written.ends_all
  intro s last
  rw [getLast?_append_name written.name_ne_nil] at last
  exact written.name_last s last

/-- The digits end at the spaces. -/
theorem takeWhile_isHexDigit (all : ∀ s ∈ digits, isHexDigit s = true) (name : Text) :
    (digits ++ (Text.ofString "  " ++ name)).takeWhile isHexDigit = digits := by
  rw [List.takeWhile_append_of_pos all]
  simp [Text.ofString, Text.ofChars, isHexDigit, Numeral.isDigit, Numeral.digit?]

theorem Written.parse_eq (written : Written line digits name ends) :
    parse line = .ok ⟨hexValue digits, name⟩ := by
  have taken := takeWhile_isHexDigit written.digits_hex name
  have left : (digits ++ (Text.ofString "  " ++ name)).drop digits.length =
      .char ' ' :: .char ' ' :: name := by
    rw [List.drop_left]
    rfl
  obtain ⟨some, few⟩ := written.digits_length
  rw [parse, written.body]
  simp only [taken, left]
  simp [some, few, written.name_ne_nil, written.name_no_feed, hexValue]

theorem exists_written_of_parse (parsed : parse line = .ok c) :
    ∃ digits ends, Written line digits c.name ends ∧ c.expected = hexValue digits := by
  obtain ⟨ends, whole, all, last⟩ := Text.eq_dropEndWhile_append isLineEnd line
  rw [parse] at parsed
  generalize line.dropEndWhile isLineEnd = body at parsed whole last
  split at parsed
  next name cut =>
    split at parsed
    next fits =>
      simp only [Bool.and_eq_true, decide_eq_true_eq, Bool.not_eq_true', List.isEmpty_eq_false_iff,
        List.contains_eq_mem, decide_eq_false_iff_not] at fits
      obtain ⟨⟨⟨some, few⟩, inhabited⟩, noFeed⟩ := fits
      cases parsed
      have split : body = body.takeWhile isHexDigit ++ (Text.ofString "  " ++ name) := by
        conv => lhs; rw [← List.take_append_drop (body.takeWhile isHexDigit).length body, cut]
        rw [← List.prefix_iff_eq_take.mp (List.takeWhile_prefix isHexDigit)]
        rfl
      refine ⟨body.takeWhile isHexDigit, ends,
        ⟨?_, ?_, ⟨some, few⟩, inhabited, noFeed, ?_, all⟩, rfl⟩
      · rw [← split]
        exact whole
      · exact List.all_eq_true.mp List.all_takeWhile
      · intro s isLast
        refine last s ?_
        rw [split, getLast?_append_name inhabited]
        exact isLast
    next => cases parsed
  next => cases parsed

/-- The lines that make a claim are those in the format. -/
theorem parse_eq_ok_iff : parse line = .ok c ↔
    ∃ digits ends, Written line digits c.name ends ∧ c.expected = hexValue digits := by
  refine ⟨exists_written_of_parse, ?_⟩
  rintro ⟨digits, ends, written, expected⟩
  rw [written.parse_eq, ← expected]

/-! ## Claims are visible -/

theorem isBlank_of_isHexDigit {s : Symbol} (digit : isHexDigit s = true) : s.isBlank = false := by
  cases s with
  | stray b => rfl
  | char c =>
      have range := Numeral.toNat_of_isDigit digit
      simp [Symbol.isBlank, isBlankChar]
      omega

/-- A line that makes a claim is not blank. -/
theorem isBlank_of_parse (parsed : parse line = .ok c) : line.isBlank = false := by
  obtain ⟨digits, ends, written, _⟩ := exists_written_of_parse parsed
  obtain ⟨s, rest, rfl⟩ := List.exists_cons_of_length_pos written.digits_length.1
  rw [written.whole, Text.isBlank, List.all_eq_false]
  exact ⟨s, by simp, by simp [isBlank_of_isHexDigit (written.digits_hex s List.mem_cons_self)]⟩

/-! ## The line of a digest -/

theorem hexValue_ofChars (cs : List Char) : hexValue (Text.ofChars cs) = Numeral.value 16 cs := by
  simp [hexValue, Text.ofChars, List.filterMap_map, Function.comp_def, Symbol.char?]

theorem isHexDigit_of_mem_hex {d : Digest} {s : Symbol} (member : s ∈ Text.ofChars d.hex) :
    isHexDigit s = true := by
  obtain ⟨c, digit, rfl⟩ := List.mem_map.mp member
  exact Numeral.isDigit_of_mem_zeroPadded (by decide) (by decide) digit

theorem length_hex {d : Digest} (fits : d.value < 2 ^ 32) : (Text.ofChars d.hex).length = 8 := by
  rw [Text.ofChars, List.length_map]
  exact Numeral.length_zeroPadded (by decide) (by decide) fits

theorem isBlank_line {d : Digest} (fits : d.value < 2 ^ 32) : d.line.isBlank = false := by
  obtain ⟨s, rest, hex⟩ := List.exists_cons_of_length_pos (by rw [length_hex fits]; decide)
  have first : s ∈ Text.ofChars d.hex := hex ▸ List.mem_cons_self
  rw [Text.isBlank, List.all_eq_false]
  exact ⟨s, List.mem_append_left _ (List.mem_append_left _ first),
    by simp [isBlank_of_isHexDigit (isHexDigit_of_mem_hex first)]⟩

/-- The line of a digest is in the format, if the digest's name is one that a line can hold. -/
theorem written_line {d : Digest} (fits : d.value < 2 ^ 32) (inhabited : d.name ≠ [])
    (noFeed : .char '\n' ∉ d.name) (last : ∀ s, d.name.getLast? = some s → isLineEnd s = false) :
    Written d.line (Text.ofChars d.hex) d.name [] where
  whole := by simp [Digest.line]
  digits_hex := fun s member => isHexDigit_of_mem_hex member
  digits_length := by
    rw [length_hex fits]
    decide
  name_ne_nil := inhabited
  name_no_feed := noFeed
  name_last := last
  ends_all := nofun

/-- Line ends behind a line that is in the format leave it in the format. -/
theorem Written.append {more : Text} (written : Written line digits name ends)
    (all : ∀ s ∈ more, isLineEnd s = true) :
    Written (line ++ more) digits name (ends ++ more) where
  whole := by rw [written.whole, List.append_assoc]
  digits_hex := written.digits_hex
  digits_length := written.digits_length
  name_ne_nil := written.name_ne_nil
  name_no_feed := written.name_no_feed
  name_last := written.name_last
  ends_all := List.forall_mem_append.mpr ⟨written.ends_all, all⟩

theorem parse_line_append {d : Digest} (fits : d.value < 2 ^ 32) (inhabited : d.name ≠ [])
    (noFeed : .char '\n' ∉ d.name) (last : ∀ s, d.name.getLast? = some s → isLineEnd s = false)
    (endings : ∀ s ∈ ends, isLineEnd s = true) :
    parse (d.line ++ ends) = .ok ⟨d.value, d.name⟩ := by
  have written := (written_line fits inhabited noFeed last).append endings
  rw [written.parse_eq, hexValue_ofChars, Digest.hex,
    Numeral.value_zeroPadded (by decide) (by decide)]

theorem parse_line {d : Digest} (fits : d.value < 2 ^ 32) (inhabited : d.name ≠ [])
    (noFeed : .char '\n' ∉ d.name) (last : ∀ s, d.name.getLast? = some s → isLineEnd s = false) :
    parse d.line = .ok ⟨d.value, d.name⟩ := by
  have read : parse (d.line ++ []) = .ok ⟨d.value, d.name⟩ :=
    parse_line_append fits inhabited noFeed last nofun
  rwa [List.append_nil] at read

/-! ## The grammar -/

structure IsListedName (name : Text) : Prop where
  ne_nil : name ≠ []
  no_feed : .char '\n' ∉ name
  last : name.getLast? ≠ some (.char '\r')

instance (name : Text) : Decidable (IsListedName name) :=
  decidable_of_iff (name ≠ [] ∧ .char '\n' ∉ name ∧ name.getLast? ≠ some (.char '\r'))
    ⟨fun ⟨nonempty, noFeed, last⟩ => ⟨nonempty, noFeed, last⟩,
      fun listed => ⟨listed.ne_nil, listed.no_feed, listed.last⟩⟩

def hexDigitValue (s : Symbol) : Nat := (s.char?.bind Numeral.digit?).getD 0

/-- One to eight hexadecimal digits, and the number that they stand for. -/
structure HexNumeral (digits : Text) (n : Nat) : Prop where
  all_hex : ∀ s ∈ digits, isHexDigit s = true
  length : 1 ≤ digits.length ∧ digits.length ≤ 8
  value : n = Nat.ofDigits 16 (digits.reverse.map hexDigitValue)

/-- A line that claims a checksum for a name. -/
def Claims (line : Text) (expected : Nat) (name : Text) : Prop :=
  ∃ digits ends, line = digits ++ (Text.ofString "  " ++ name) ++ ends ∧
    HexNumeral digits expected ∧ IsListedName name ∧ ∀ s ∈ ends, isLineEnd s = true

theorem isLineEnd_iff {s : Symbol} : isLineEnd s = true ↔ s = .char '\r' ∨ s = .char '\n' := by
  simp [isLineEnd]

/-- A name without a line feed ends in a line end only if it ends in a carriage return. -/
theorem isListedName_iff : IsListedName name ↔ name ≠ [] ∧ .char '\n' ∉ name ∧
    ∀ s, name.getLast? = some s → isLineEnd s = false := by
  constructor
  · intro listed
    refine ⟨listed.ne_nil, listed.no_feed, fun s last => Bool.eq_false_iff.mpr fun ends => ?_⟩
    obtain rfl | rfl := isLineEnd_iff.mp ends
    · exact listed.last last
    · exact listed.no_feed (List.mem_of_getLast? last)
  · rintro ⟨nonempty, noFeed, last⟩
    refine ⟨nonempty, noFeed, fun returned => ?_⟩
    cases last _ returned

theorem hexValue_eq_ofDigits (all : ∀ s ∈ digits, isHexDigit s = true) :
    hexValue digits = Nat.ofDigits 16 (digits.reverse.map hexDigitValue) := by
  have chars : digits.map hexDigitValue =
      (digits.filterMap Symbol.char?).map fun c => (Numeral.digit? c).getD 0 := by
    induction digits with
    | nil => rfl
    | cons s digits ih =>
        obtain ⟨first, others⟩ := List.forall_mem_cons.mp all
        cases s with
        | stray b => cases first
        | char c => exact congrArg (_ :: ·) (ih others)
  rw [hexValue, Numeral.value_eq_ofDigits, List.map_reverse, List.map_reverse, chars]

theorem claims_iff {expected : Nat} : Claims line expected name ↔
    ∃ digits ends, Written line digits name ends ∧ expected = hexValue digits := by
  refine exists_congr fun digits => exists_congr fun ends => ?_
  constructor
  · rintro ⟨whole, ⟨all, length, value⟩, listed, endings⟩
    obtain ⟨nonempty, noFeed, last⟩ := isListedName_iff.mp listed
    exact ⟨⟨whole, all, length, nonempty, noFeed, last, endings⟩,
      value.trans (hexValue_eq_ofDigits all).symm⟩
  · rintro ⟨written, expected⟩
    refine ⟨written.whole, ⟨written.digits_hex, written.digits_length, ?_⟩,
      isListedName_iff.mpr ⟨written.name_ne_nil, written.name_no_feed, written.name_last⟩,
      written.ends_all⟩
    exact expected.trans (hexValue_eq_ofDigits written.digits_hex)

/-- A line that makes no claim is refused as such. -/
theorem parse_cases (line : Text) :
    (∃ c, parse line = .ok c) ∨ parse line = .error (.malformedLine line) := by
  unfold parse
  dsimp only
  split
  · split
    · exact .inl ⟨_, rfl⟩
    · exact .inr rfl
  · exact .inr rfl

/-- Reading a line gives just what the line claims, and an error if it claims nothing. So what is
written for a digest reads back as its checksum and its name, whatever line ends stand behind it. -/
theorem parse_exactly :
    (∀ line expected name, parse line = .ok ⟨expected, name⟩ ↔ Claims line expected name) ∧
    (∀ line, parse line = .error (.malformedLine line) ↔
      ¬ ∃ expected name, Claims line expected name) ∧
    ∀ d : Digest, d.value < 2 ^ 32 → IsListedName d.name →
      ∀ ends, (∀ s ∈ ends, isLineEnd s = true) →
        parse (d.line ++ ends) = .ok ⟨d.value, d.name⟩ := by
  have reads line expected name :
      parse line = .ok ⟨expected, name⟩ ↔ Claims line expected name := by
    rw [parse_eq_ok_iff, claims_iff]
  refine ⟨reads, fun line => ?_, fun d fits listed ends endings => ?_⟩
  · constructor
    · rintro refused ⟨expected, name, claims⟩
      cases refused.symm.trans ((reads line expected name).mpr claims)
    · intro nothing
      refine (parse_cases line).resolve_left ?_
      rintro ⟨⟨expected, name⟩, parsed⟩
      exact nothing ⟨expected, name, (reads line expected name).mp parsed⟩
  · obtain ⟨nonempty, noFeed, last⟩ := isListedName_iff.mp listed
    exact parse_line_append fits nonempty noFeed last endings

/-- The name begins with blanks and what could be digits, and holds a carriage return. -/
theorem parse_exactly_blanks :
    let name : Text := "  ab  \rc"
    let d : Digest := ⟨.bsd, 0xBEEF, 7, name⟩
    d.line = Text.ofString "0000beef    ab  \rc" ∧
      parse (d.line ++ Text.ofString "\r\n\r") = .ok ⟨0xBEEF, name⟩ := by
  intro name d
  obtain ⟨-, -, back⟩ := parse_exactly
  exact ⟨by decide, back d (by decide) (by decide) (Text.ofString "\r\n\r") (by decide)⟩

end CheckLine

end Bytewise
