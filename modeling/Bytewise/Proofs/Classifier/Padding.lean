import Bytewise.Proofs.Classifier.BlankLines

/-!
# Blanks around lines

Blanks at the beginning and at the end of a line do not change its class, nor that of any line
behind it (`Markers.classify_ignores_padding`), if no marker holds a blank. So a file may be
indented in any way, and its lines may end with a carriage return in front of the line feed.

Blanks are passed over in every mode, but they are seen: by the look back to the byte before a
quote, and by the look ahead for a marker. The first does no harm because a blank is no backslash,
just as the line feed before an unindented line is none. The second does none because a marker that
is found before the blanks ends before them (`Scan.run_append_padding`).
-/

namespace Bytewise

/-- Blanks that may stand within a line. -/
def IsPadding (blanks : Bytes) : Prop := ∀ b ∈ blanks, isBlankByte b = true ∧ b ≠ newline

instance (blanks : Bytes) : Decidable (IsPadding blanks) :=
  List.decidableBAll _ blanks

structure PaddedLine where
  before : Bytes
  content : Bytes
  behind : Bytes
  before_padding : IsPadding before
  content_oneLine : newline ∉ content
  behind_padding : IsPadding behind

namespace PaddedLine

def bytes (line : PaddedLine) : Bytes := line.before ++ line.content ++ line.behind ++ [newline]

def file (lines : List PaddedLine) : Bytes := (lines.map bytes).flatten

end PaddedLine

def carriageReturn : UInt8 := 0x0D

/-- The bytes with a carriage return in front of each line feed. -/
def crlf (data : Bytes) : Bytes :=
  data.flatMap fun b => if b = newline then [carriageReturn, newline] else [b]

structure Markers.Unspaced (m : Markers) : Prop where
  line : ∀ b ∈ m.line, isBlankByte b = false
  blockStart : ∀ b ∈ m.blockStart, isBlankByte b = false
  blockEnd : ∀ b ∈ m.blockEnd, isBlankByte b = false

instance (m : Markers) : Decidable m.Unspaced :=
  decidable_of_iff (m.line.all (!isBlankByte ·) ∧ m.blockStart.all (!isBlankByte ·) ∧
    m.blockEnd.all (!isBlankByte ·))
    ⟨fun ⟨line, start, stop⟩ => ⟨by simpa using line, by simpa using start, by simpa using stop⟩,
      fun unspaced => by simpa using ⟨unspaced.line, unspaced.blockStart, unspaced.blockEnd⟩⟩

variable {m : Markers} {carry : Carry} {blanks body rest : Bytes}

theorem Markers.Unspaced.oneLine (unspaced : m.Unspaced) : m.OneLine where
  line := fun feed => Bool.false_ne_true (unspaced.line _ feed).symm
  blockStart := fun feed => Bool.false_ne_true (unspaced.blockStart _ feed).symm
  blockEnd := fun feed => Bool.false_ne_true (unspaced.blockEnd _ feed).symm

namespace IsPadding

theorem newline_not_mem (padding : IsPadding blanks) : newline ∉ blanks :=
  fun feed => (padding newline feed).2 rfl

theorem all_isBlankByte (padding : IsPadding blanks) : blanks.all isBlankByte = true :=
  List.all_eq_true.mpr fun b member => (padding b member).1

/-- Markers end before blanks. -/
theorem endBefore (padding : IsPadding blanks) (unspaced : m.Unspaced) : m.EndBefore blanks := by
  have absent {marker : Bytes} (visible : ∀ b ∈ marker, isBlankByte b = false) :
      ∀ b ∈ blanks.head?, b ∉ marker := by
    intro b first member
    have blank := (padding b (List.mem_of_head? first)).1
    rw [visible b member] at blank
    cases blank
  exact ⟨absent unspaced.line, absent unspaced.blockStart, absent unspaced.blockEnd⟩

end IsPadding

/-! ## One line -/

namespace Scan

/-- Blanks behind a stretch change nothing but the byte before the cursor. -/
theorem run_append_padding (unspaced : m.Unspaced) (padding : IsPadding blanks) (s : Scan)
    (body : Bytes) :
    run m 0 s (body ++ blanks) =
      { run m 0 s body with previous := blanks.getLastD (run m 0 s body).previous } := by
  have landed : (across m blanks 0 s body).2 = 0 :=
    landed_of_endBefore (padding.endBefore unspaced) (Nat.zero_le _)
  rw [run_append_of_landed landed]
  exact run_blanks padding.newline_not_mem padding.all_isBlankByte _

/-- The byte before a line is no backslash, also if blanks were put in front of the line. -/
theorem getLastD_ne_backslash (padding : IsPadding blanks) {previous : UInt8}
    (unescaped : previous ≠ backslash) : blanks.getLastD previous ≠ backslash := by
  rw [List.getLastD_eq_getLast?]
  cases last : blanks.getLast? with
  | none => exact unescaped
  | some b =>
      rintro rfl
      cases (padding backslash (List.mem_of_getLast? last)).1

end Scan

namespace Markers

/-- Blanks around a line's content change neither its class nor what it hands on. -/
theorem scanLine_padded (unspaced : m.Unspaced) (carry : Carry) (line : PaddedLine) :
    m.scanLine carry line.bytes = m.scanLine carry line.content := by
  obtain ⟨before, content, behind, indent, oneLine, trailing⟩ := line
  have noFeed : newline ∉ before ++ content ++ behind := by
    simp [indent.newline_not_mem, oneLine, trailing.newline_not_mem]
  have indented : Scan.run m 0 { mode := carry.mode } (before ++ content) =
      { Scan.run m 0 { mode := carry.mode } content with
        previous := content.getLastD (before.getLastD 0), tally := {} } := by
    rw [Scan.run_blanks_append indent.newline_not_mem indent.all_isBlankByte]
    have unescaped : before.getLastD 0 ≠ Scan.backslash :=
      Scan.getLastD_ne_backslash indent (by decide)
    exact Scan.run_content oneLine carry unescaped {}
  have contents : lineContent (before ++ content ++ behind ++ [newline]) =
      before ++ content ++ behind := lineContent_line noFeed
  simp only [scanLine, PaddedLine.bytes, contents, lineContent_tail oneLine,
    Scan.run_append_padding unspaced trailing, indented]
  rfl

/-! ## All lines -/

theorem lineClasses_file (unspaced : m.Unspaced) (carry : Carry) (lines : List PaddedLine) :
    m.lineClasses carry (cutLines (PaddedLine.file lines)) =
      m.lineClasses carry (lines.map PaddedLine.content) := by
  induction lines generalizing carry with
  | nil => rfl
  | cons line lines ih =>
      have noFeed : newline ∉ line.before ++ line.content ++ line.behind := by
        simp [line.before_padding.newline_not_mem, line.content_oneLine,
          line.behind_padding.newline_not_mem]
      have first : cutLines (PaddedLine.file (line :: lines)) =
          line.bytes :: cutLines (PaddedLine.file lines) := by
        have cut := cutLines_line noFeed (PaddedLine.file lines)
        rwa [← List.singleton_append, ← List.append_assoc] at cut
      rw [first, lineClasses, List.map_cons, lineClasses, scanLine_padded unspaced, ih]

end Markers

/-! ## Carriage returns -/

theorem crlf_append (front rest : Bytes) : crlf (front ++ rest) = crlf front ++ crlf rest :=
  List.flatMap_append

theorem crlf_of_not_mem (noFeed : newline ∉ body) : crlf body = body := by
  induction body with
  | nil => rfl
  | cons b body ih =>
      rw [List.mem_cons, not_or] at noFeed
      rw [crlf, List.flatMap_cons, if_neg (Ne.symm noFeed.1)]
      exact congrArg (b :: ·) (ih noFeed.2)

theorem crlf_line (noFeed : newline ∉ body) (rest : Bytes) :
    crlf (body ++ newline :: rest) = body ++ [carriageReturn] ++ newline :: crlf rest := by
  rw [crlf_append, crlf_of_not_mem noFeed, List.append_assoc]
  rfl

namespace Markers

theorem lineClasses_crlf (unspaced : m.Unspaced) (carry : Carry) (data : Bytes) :
    m.lineClasses carry (cutLines (crlf data)) = m.lineClasses carry (cutLines data) := by
  induction data using linesInduction generalizing carry with
  | nil => rfl
  | tail body _ noFeed => rw [crlf_of_not_mem noFeed]
  | line body rest noFeed ih =>
      let bare : PaddedLine := ⟨[], body, [], by decide, noFeed, by decide⟩
      let returned : PaddedLine := ⟨[], body, [carriageReturn], by decide, noFeed, by decide⟩
      have same : m.scanLine carry (body ++ [carriageReturn] ++ [newline]) =
          m.scanLine carry (body ++ [newline]) := by
        have bytes : bare.bytes = body ++ [newline] := congrArg (· ++ _) (List.append_nil body)
        rw [← bytes, scanLine_padded unspaced carry bare]
        exact scanLine_padded unspaced carry returned
      have noFeed' : newline ∉ body ++ [carriageReturn] := by
        rw [List.mem_append, not_or]
        exact ⟨noFeed, by decide⟩
      rw [crlf_line noFeed, cutLines_line noFeed', cutLines_line noFeed, lineClasses, lineClasses,
        same, ih]

/-- Files that differ only in the blanks around their lines are counted alike, whatever the blanks
are and whatever the lines hold: also where a string or a block comment goes on over several lines.
So a file is counted like the same file with a carriage return in front of each line feed, also if
no line feed ends its last line. -/
theorem classify_ignores_padding (unspaced : m.Unspaced) (start : LineTally) :
    (∀ lines lines' : List PaddedLine,
      lines.map PaddedLine.content = lines'.map PaddedLine.content →
      m.classify start (PaddedLine.file lines) = m.classify start (PaddedLine.file lines')) ∧
    ∀ data, m.classify start (crlf data) = m.classify start data := by
  have byLines := classify_eq_add_lineClasses unspaced.oneLine start
  constructor
  · intro lines lines' same
    rw [byLines, byLines, lineClasses_file unspaced, lineClasses_file unspaced, same]
  · intro data
    rw [byLines, byLines, lineClasses_crlf unspaced]

/-- A string that goes on behind a backslash at the end of a line, and a block comment. It makes no
difference whether the second line starts with its closing quote, and the marker at the end of the
last line may have a tab behind it. -/
theorem classify_ignores_padding_slashes :
    let m : Markers := ⟨Text.encode "//", Text.encode "/*", Text.encode "*/"⟩
    let first := Text.encode "x = \"a\\"
    let second := Text.encode "\" /*"
    let last := Text.encode "*/ //"
    let plain : List PaddedLine :=
      [⟨[], first, [], by decide, by decide, by decide⟩,
       ⟨[], second, [], by decide, by decide, by decide⟩,
       ⟨[], last, [], by decide, by decide, by decide⟩]
    let padded : List PaddedLine :=
      [⟨[], first, [0x20, 0x0D], by decide, by decide, by decide⟩,
       ⟨[0x20, 0x20], second, [0x0B], by decide, by decide, by decide⟩,
       ⟨[0x09], last, [0x09], by decide, by decide, by decide⟩]
    m.Unspaced ∧ plain.map PaddedLine.content = padded.map PaddedLine.content ∧
      m.classify {} (PaddedLine.file padded) = ⟨1, 2, 0⟩ ∧
      m.classify {} (crlf (PaddedLine.file plain)) = ⟨1, 2, 0⟩ := by
  intro m first second last plain padded
  have unspaced : m.Unspaced := by decide
  obtain ⟨alike, returned⟩ := classify_ignores_padding unspaced {}
  have counted : m.classify {} (PaddedLine.file plain) = ⟨1, 2, 0⟩ := by decide
  exact ⟨unspaced, rfl, (alike padded plain rfl).trans counted, (returned _).trans counted⟩

end Markers

end Bytewise
