import Bytewise.Proofs.Command.LineDiff
import Bytewise.Proofs.Numeral

/-!
# The second file from the text of a comparison

Nothing in the text of a comparison is escaped. A compared line may look like the header of a hunk,
and a last line without a line feed runs into whatever is written behind it. Still, whoever knows
the first file can tell the second one from the text (`text_eq_text_iff`).

The header of the first hunk is a line of its own, which tells where the hunk stands and of which
kind it is; before it the two files agree. What the hunk shows of the first file is known. It is
followed by the line of the second file, and that line ends at the next line feed, with one
exception: if it is the last line and lacks its line feed, the next line feed is that of the header
of a deletion. Then the text goes on with the mark of a deleted line, where otherwise there would be
a header, which starts with a number.
-/

namespace Bytewise

/-- Lines as a file has them: only the last one may lack its line feed. -/
inductive FileLines : List Bytes → Prop where
  | nil : FileLines []
  | tail {body : Bytes} (noFeed : newline ∉ body) : FileLines [body]
  | line {body : Bytes} {rest : List Bytes} (noFeed : newline ∉ body) (others : FileLines rest) :
      FileLines ((body ++ [newline]) :: rest)

theorem fileLines_cutLines (data : Bytes) : FileLines (cutLines data) := by
  induction data using linesInduction with
  | nil => exact .nil
  | tail body nonempty noFeed =>
      rw [cutLines_tail nonempty noFeed]
      exact .tail noFeed
  | line body rest noFeed ih =>
      rw [cutLines_line noFeed]
      exact .line noFeed ih

theorem FileLines.rest {line : Bytes} {rest : List Bytes} (lines : FileLines (line :: rest)) :
    FileLines rest := by
  cases lines with
  | tail => exact .nil
  | line _ others => exact others

/-! ## Headers -/

/-- Only the line feed is written with the byte of a line feed. -/
theorem newline_mem_encode_iff (s : Symbol) (plain : s.char?.isSome) :
    newline ∈ s.encode ↔ s = .char '\n' := by
  obtain ⟨c⟩ | ⟨b⟩ := s
  case stray => cases plain
  have number : Symbol.char c = .char '\n' ↔ c.val.toNat = 10 := by
    rw [Symbol.char.injEq, Char.ext_iff, ← UInt32.toNat_inj]
    rfl
  have byte (m : Nat) (small : m < 256) : newline = UInt8.ofNat m ↔ m = 10 := by
    rw [← UInt8.toNat_inj, Utf8.toNat_ofNat small]
    exact eq_comm
  rw [number, Symbol.encode, String.utf8EncodeChar]
  generalize c.val.toNat = n
  -- Every byte of the three longer forms is at least 128.
  split
  next => rw [List.mem_singleton, byte n (by omega)]
  next =>
    split
    next =>
      rw [List.mem_cons, List.mem_singleton, byte _ (by omega), byte _ (by omega)]
      omega
    next =>
      split
      next =>
        rw [List.mem_cons, List.mem_cons, List.mem_singleton, byte _ (by omega), byte _ (by omega),
          byte _ (by omega)]
        omega
      next =>
        rw [List.mem_cons, List.mem_cons, List.mem_cons, List.mem_singleton, byte _ (by omega),
          byte _ (by omega), byte _ (by omega), byte _ (by omega)]
        omega

namespace Hunk

def shownNumbers (h : Hunk) : Int × Int :=
  match h.change with
  | .added _ => (h.number - 1, h.number)
  | .deleted _ => (h.number, h.number - 1)
  | .changed _ _ => (h.number, h.number)

/-- What a hunk shows behind its header. -/
def shownLines (h : Hunk) : Bytes :=
  match h.change with
  | .added new => [0x3E, 0x20] ++ new
  | .deleted old => [0x3C, 0x20] ++ old
  | .changed old new => [0x3C, 0x20] ++ old ++ [0x2D, 0x2D, 0x2D, newline, 0x3E, 0x20] ++ new

def headerChars (h : Hunk) : List Char :=
  Numeral.decimal h.shownNumbers.1 ++ h.change.kind :: Numeral.decimal h.shownNumbers.2

variable {h h' : Hunk} {x y : Bytes}

theorem header_eq (first : Int) (kind : Char) (second : Int) :
    header first kind second =
      (Text.ofChars (Numeral.decimal first ++ kind :: Numeral.decimal second)).encode ++
        [newline] := by
  have feed : Symbol.encode (.char '\n') = [newline] := by decide
  simp [header, Text.ofChars, Text.encode, feed]

theorem text_eq (h : Hunk) :
    h.text = (Text.ofChars h.headerChars).encode ++ newline :: h.shownLines := by
  obtain ⟨number, change⟩ := h
  cases change <;>
    simp [text, header_eq, headerChars, shownNumbers, shownLines, Change.kind]

theorem kind_not_mem_decimal (c : Change) (n : Int) : c.kind ∉ Numeral.decimal n := by
  intro member
  obtain digit | minus := Numeral.isDigit_or_minus_of_mem_decimal member
  · cases c <;> cases digit
  · cases c <;> cases minus

theorem newline_not_mem_header (h : Hunk) :
    newline ∉ (Text.ofChars h.headerChars).encode := by
  rw [Text.encode, List.mem_flatMap]
  rintro ⟨s, written, feed⟩
  obtain ⟨c, member, rfl⟩ := List.mem_map.mp written
  rw [newline_mem_encode_iff _ rfl, Symbol.char.injEq] at feed
  subst feed
  rw [headerChars, List.mem_append, List.mem_cons] at member
  have noFeed (n : Int) : '\n' ∉ Numeral.decimal n := by
    intro inside
    obtain digit | minus := Numeral.isDigit_or_minus_of_mem_decimal inside
    · cases digit
    · cases minus
  obtain first | kind | second := member
  · exact noFeed _ first
  · cases change : h.change <;> simp [change, Change.kind] at kind
  · exact noFeed _ second

/-- The header of the first hunk can be read off, whatever follows. -/
theorem of_text_append_eq (same : h.text ++ x = h'.text ++ y) :
    h.number = h'.number ∧ h.change.kind = h'.change.kind ∧
      h.shownLines ++ x = h'.shownLines ++ y := by
  rw [text_eq, text_eq, List.append_assoc, List.append_assoc, List.cons_append, List.cons_append,
    line_inj (newline_not_mem_header h) (newline_not_mem_header h')] at same
  obtain ⟨headers, rest⟩ := same
  have chars : h.headerChars = h'.headerChars := by
    have texts := Text.eq_of_encode_eq (Text.printable_ofChars _) (Text.printable_ofChars _) headers
    exact (List.map_inj_right fun _ _ same => Symbol.char.inj same).mp texts
  rw [headerChars, headerChars, List.append_cons_inj_of_notMem (kind_not_mem_decimal _ _)
    (kind_not_mem_decimal _ _)] at chars
  obtain ⟨first, kind, second⟩ := chars
  have numbers := And.intro (Numeral.decimal_injective first) (Numeral.decimal_injective second)
  refine ⟨?_, kind, rest⟩
  -- For each kind, one of the two numbers is that of the hunk.
  obtain ⟨number, change⟩ := h
  obtain ⟨number', change'⟩ := h'
  cases change <;> cases change' <;> try cases kind
  case added.added => exact numbers.2
  case deleted.deleted => exact numbers.1
  case changed.changed => exact numbers.1

/-- The text of a hunk begins with a number, never with the mark of a deleted line. -/
theorem text_ne_mark (h : Hunk) (x : Bytes) : h.text ≠ 0x3C :: x := by
  intro marked
  obtain ⟨c, cs, chars⟩ := List.exists_cons_of_ne_nil (Numeral.decimal_ne_nil h.shownNumbers.1)
  have start : ∃ rest, h.text = String.utf8EncodeChar c ++ rest := by
    rw [text_eq, headerChars, chars]
    exact ⟨_, List.append_assoc ..⟩
  obtain ⟨rest, start⟩ := start
  have less : Utf8.first? (0x3C :: x) = some ('<', 1) := Utf8.first?_one (by decide)
  rw [← marked, start, Utf8.first?_encodeChar] at less
  cases less
  obtain digit | minus := Numeral.isDigit_or_minus_of_mem_decimal (chars ▸ List.mem_cons_self)
  · cases digit
  · cases minus

end Hunk

/-! ## Texts from a line on -/

/-- The text of the hunks from a line on, if no differences are ignored. -/
def textFrom (number : Nat) (old new : List Bytes) : Bytes :=
  (diffFrom {} number [] old new).flatMap Hunk.text

variable {number : Nat} {old new new' : List Bytes} {a b b' x : Bytes} {h : Hunk}

theorem number_le_of_mem_diffFrom (member : h ∈ diffFrom {} number [] old new) :
    (number : Int) ≤ h.number := by
  rw [diffFrom_eq {} number _ old new rfl] at member
  obtain ⟨i, -, found⟩ := List.mem_filterMap.mp member
  rw [number_of_at? found]
  omega

/-- A text from a line on does not begin with a hunk of an earlier line. -/
theorem textFrom_ne_of_lt (earlier : h.number < number) (x : Bytes) :
    textFrom number old new ≠ h.text ++ x := by
  intro same
  rw [textFrom] at same
  cases hunks : diffFrom {} number [] old new with
  | nil =>
      rw [hunks] at same
      exact h.text_ne_nil (List.append_eq_nil_iff.mp same.symm).1
  | cons h' others =>
      rw [hunks, List.flatMap_cons] at same
      have later := number_le_of_mem_diffFrom (hunks ▸ List.mem_cons_self)
      have number := (Hunk.of_text_append_eq same).1
      omega

theorem textFrom_step (number : Nat) (old new : List Bytes) :
    textFrom number old new =
      ((Hunk.at? {} number old.head? new.head?).toList.flatMap Hunk.text) ++
        textFrom (number + 1) old.tail new.tail := by
  rw [textFrom, diffFrom_step, List.flatMap_append]
  rfl

theorem textFrom_nil (number : Nat) : textFrom number [] [] = [] := by
  simp [textFrom, diffFrom]

/-- A line that is deleted is shown. -/
theorem textFrom_deleted (number : Nat) (a : Bytes) (old : List Bytes) :
    textFrom number (a :: old) [] =
      Hunk.text ⟨number, .deleted a⟩ ++ textFrom (number + 1) old [] := by
  simpa [Hunk.at?, Change.of?] using textFrom_step number (a :: old) []

theorem textFrom_added (number : Nat) (b : Bytes) (new : List Bytes) :
    textFrom number [] (b :: new) =
      Hunk.text ⟨number, .added b⟩ ++ textFrom (number + 1) [] new := by
  simpa [Hunk.at?, Change.of?] using textFrom_step number [] (b :: new)

theorem textFrom_same (number : Nat) (a : Bytes) (old new : List Bytes) :
    textFrom number (a :: old) (a :: new) = textFrom (number + 1) old new := by
  simpa [Hunk.at?] using textFrom_step number (a :: old) (a :: new)

theorem textFrom_changed (number : Nat) (differ : a ≠ b) (old new : List Bytes) :
    textFrom number (a :: old) (b :: new) =
      Hunk.text ⟨number, .changed a b⟩ ++ textFrom (number + 1) old new := by
  simpa [Hunk.at?, Change.of?, normalize_plain, differ] using
    textFrom_step number (a :: old) (b :: new)

theorem textFrom_ne_mark (number : Nat) (old new : List Bytes) (x : Bytes) :
    textFrom number old new ≠ 0x3C :: x := by
  rw [textFrom]
  cases diffFrom {} number [] old new with
  | nil => exact nofun
  | cons h others =>
      rw [List.flatMap_cons]
      intro marked
      obtain ⟨b, rest, text⟩ := List.exists_cons_of_ne_nil h.text_ne_nil
      rw [text] at marked
      exact h.text_ne_mark rest (text.trans (congrArg (· :: rest) (List.cons.inj marked).1))

/-! ## Reading the second file off -/

/-- A line without its line feed, with the deletions behind it, is not a line with its line feed. -/
theorem unfinished_ne {body body' : Bytes} (noFeed : newline ∉ body) (noFeed' : newline ∉ body') :
    body ++ textFrom number old [] ≠ body' ++ newline :: textFrom number old new := by
  intro same
  cases old with
  | nil =>
      have feed : newline ∈ body ++ textFrom number [] [] := by
        rw [same]
        simp
      rw [textFrom_nil, List.append_nil] at feed
      exact noFeed feed
  | cons a old =>
      -- The next line feed is that of the header of the deletion.
      rw [textFrom_deleted, Hunk.text_eq, List.append_assoc, ← List.append_assoc, List.cons_append,
        line_inj (by simp [noFeed, Hunk.newline_not_mem_header]) noFeed'] at same
      exact textFrom_ne_mark _ _ _ _ same.2.symm

/-- The line of the second file behind a header is known, and so is the text behind it. -/
theorem line_of_append_eq (lines : FileLines (b :: new)) (lines' : FileLines (b' :: new'))
    (same : b ++ textFrom number old new = b' ++ textFrom number old new') :
    b = b' ∧ textFrom number old new = textFrom number old new' := by
  cases lines with
  | tail noFeed =>
      cases lines' with
      | tail noFeed' => exact ⟨List.append_cancel_right same, rfl⟩
      | line noFeed' _ =>
          rw [List.append_assoc] at same
          exact absurd same (unfinished_ne noFeed noFeed')
  | line noFeed _ =>
      rw [List.append_assoc] at same
      cases lines' with
      | tail noFeed' => exact absurd same.symm (unfinished_ne noFeed' noFeed)
      | line noFeed' _ =>
          rw [List.append_assoc, List.singleton_append, List.singleton_append,
            line_inj noFeed noFeed'] at same
          exact ⟨congrArg (· ++ [newline]) same.1, same.2⟩

/-- A line that stands where the first file has it is not shown, and one that differs is. -/
theorem textFrom_same_ne (differ : a ≠ b) (old new new' : List Bytes) :
    textFrom number (a :: old) (a :: new) ≠ textFrom number (a :: old) (b :: new') := by
  rw [textFrom_same, textFrom_changed number differ]
  exact textFrom_ne_of_lt (by simp) _

/-- The text tells whether the second file has a line. -/
theorem textFrom_nil_ne (number : Nat) (old : List Bytes) (b : Bytes) (new : List Bytes) :
    textFrom number old [] ≠ textFrom number old (b :: new) := by
  intro same
  cases old with
  | nil =>
      rw [textFrom_nil, textFrom_added] at same
      exact Hunk.text_ne_nil _ (List.append_eq_nil_iff.mp same.symm).1
  | cons a old =>
      by_cases equal : a = b
      · subst equal
        rw [textFrom_deleted, textFrom_same] at same
        exact textFrom_ne_of_lt (by simp) _ same.symm
      · rw [textFrom_deleted, textFrom_changed number equal] at same
        cases (Hunk.of_text_append_eq same).2.1

/-- With the first file known, the text tells the second one, from any line on. -/
theorem eq_of_textFrom_eq (lines : FileLines new) (lines' : FileLines new')
    (same : textFrom number old new = textFrom number old new') : new = new' := by
  induction new generalizing number old new' with
  | nil =>
      cases new' with
      | nil => rfl
      | cons b' new' => exact absurd same (textFrom_nil_ne number old b' new')
  | cons b new ih =>
      cases new' with
      | nil => exact absurd same.symm (textFrom_nil_ne number old b new)
      | cons b' new' =>
          -- Once the first lines are known to be equal, the texts behind them are.
          have others (old : List Bytes)
              (rest : textFrom (number + 1) old new = textFrom (number + 1) old new') :
              new = new' := ih lines.rest lines'.rest rest
          cases old with
          | nil =>
              rw [textFrom_added, textFrom_added] at same
              have shown := (Hunk.of_text_append_eq same).2.2
              simp only [Hunk.shownLines, List.append_assoc, List.append_cancel_left_eq] at shown
              obtain ⟨line, rest⟩ := line_of_append_eq lines lines' shown
              rw [line, others [] rest]
          | cons a old =>
              by_cases first : a = b
              · by_cases first' : a = b'
                · subst first first'
                  rw [textFrom_same, textFrom_same] at same
                  rw [others old same]
                · subst first
                  exact absurd same (textFrom_same_ne first' old new new')
              · by_cases first' : a = b'
                · subst first'
                  exact absurd same.symm (textFrom_same_ne first old new' new)
                · rw [textFrom_changed number first, textFrom_changed number first'] at same
                  have shown := (Hunk.of_text_append_eq same).2.2
                  simp only [Hunk.shownLines, List.append_assoc,
                    List.append_cancel_left_eq] at shown
                  obtain ⟨line, rest⟩ := line_of_append_eq lines lines' shown
                  rw [line, others old rest]

/-! ## Files -/

variable {t t' : FileTree} {oldName oldName' newName newName' : Text} {c : Bytes}

/-- Two comparisons of one content, in files of any name, with others in which no differences are
ignored have the same text exactly if those others have the same content. Whether a file ends with
a line feed makes no difference to this. -/
theorem text_eq_text_iff (first : t.openRaw oldName = .ok a) (first' : t'.openRaw oldName' = .ok a)
    (second : t.openRaw newName = .ok b) (second' : t'.openRaw newName' = .ok c) :
    ∃ compared compared', compareFiles t {} oldName newName = .ok compared ∧
      compareFiles t' {} oldName' newName' = .ok compared' ∧
      (compared.text = compared'.text ↔ b = c) := by
  refine ⟨_, _, compareFiles_of_opened first second, compareFiles_of_opened first' second', ?_⟩
  constructor
  · intro same
    have lines : cutLines b = cutLines c :=
      eq_of_textFrom_eq (fileLines_cutLines b) (fileLines_cutLines c) same
    rw [← flatten_cutLines b, lines, flatten_cutLines]
  · rintro rfl
    rfl

/-- A last line that lacks its line feed runs into the header behind it, and here looks like a line
that ends with this header. -/
theorem text_eq_text_iff_runIn :
    let t : FileTree := [("a", .file {} [0x78, 0x0A, 0x79, 0x0A]), ("b", .file {} [0x71])]
    let t' : FileTree := [("a", .file {} [0x78, 0x0A, 0x79, 0x0A]),
      ("b", .file {} [0x71, 0x32, 0x64, 0x31, 0x0A])]
    ∃ compared compared', compareFiles t {} "a" "b" = .ok compared ∧
      compareFiles t' {} "a" "b" = .ok compared' ∧ compared.text ≠ compared'.text := by
  intro t t'
  have first : t.openRaw "a" = .ok [0x78, 0x0A, 0x79, 0x0A] := by cbv
  have first' : t'.openRaw "a" = .ok [0x78, 0x0A, 0x79, 0x0A] := by cbv
  have second : t.openRaw "b" = .ok [0x71] := by cbv
  have second' : t'.openRaw "b" = .ok [0x71, 0x32, 0x64, 0x31, 0x0A] := by cbv
  obtain ⟨compared, compared', known, known', decides⟩ :=
    text_eq_text_iff first first' second second'
  exact ⟨compared, compared', known, known', fun same => absurd (decides.mp same) (by decide)⟩

end Bytewise
