import Bytewise.Proofs.Dump.ReadBack

/-!
# Squeezed dumps

A mark stands for the rows after the printed one that have the same bytes. How many there are is not
printed, but it can be told from the next printed line, whose offset is known, or from the end of
the dump. `Layout.expand` puts the lines back in which a mark has replaced; it sees nothing but the
lines of the squeezed dump and where the dump ends.

The proof follows the rows. Outside of a run the rows so far have been put back. Inside of a run the
mark has been met and some rows have gone by, which the mark has to give back once the run is over;
`restores` says both at once, because each row may change from one of the situations to the other.
-/

namespace Bytewise

/-- The offset behind the last of the rows, or the given one if there are no rows. -/
def endOffset (start : Nat) : List Row → Nat
  | [] => start
  | row :: rows => endOffset (row.offset + row.data.length) rows

/-- A full row with the same bytes as the row before. -/
def Row.Repeats (width : Nat) (before : Option Bytes) (row : Row) : Prop :=
  before = some row.data ∧ row.data.length = width

instance (width : Nat) (before : Option Bytes) (row : Row) :
    Decidable (row.Repeats width before) :=
  inferInstanceAs (Decidable (_ ∧ _))

/-- The rows that are not full, or whose bytes differ from those of the row before. -/
def freshRows (width : Nat) (before : Option Bytes) : List Row → List Row
  | [] => []
  | row :: rows =>
    if row.Repeats width before then freshRows width (some row.data) rows
    else row :: freshRows width (some row.data) rows

namespace Layout

/-- The lines that stand between a row and the next printed offset, all with the bytes of the row.
-/
def filling (l : Layout) (width : Nat) (before : Row) (next : Nat) : List (List Char) :=
  (List.range' (before.offset + width) ((next - 1 - before.offset) / width) width).map
    fun (offset : Nat) => l.line width offset before.data

/-- The offset of the first line, or the end of the dump if there is no line. -/
def nextOffset (l : Layout) (stop : Nat) (lines : List (List Char)) : Nat :=
  lines.head?.elim stop fun line => (l.readLine line).offset

/-- Put lines back in where a mark stands. -/
def expandFrom (l : Layout) (width stop : Nat) (before : Option Row) :
    List (List Char) → List (List Char)
  | [] => []
  | line :: rest =>
    if line = repeatMark then
      before.elim [] (fun row => l.filling width row (l.nextOffset stop rest)) ++
        l.expandFrom width stop before rest
    else line :: l.expandFrom width stop (some (l.readLine line)) rest

/-- The full dump, from the lines of the squeezed one and the offset at which it ends. -/
def expand (l : Layout) (width stop : Nat) (lines : List (List Char)) : List (List Char) :=
  l.expandFrom width stop none lines

theorem line_ne_repeatMark (l : Layout) (width offset : Nat) (data : Bytes) :
    l.line width offset data ≠ repeatMark := by
  intro same
  have blank : ' ' ∈ l.line width offset data := by
    rw [line_eq_append]
    exact List.mem_append_right _ (List.mem_of_head? (l.head?_lineTail width data))
  rw [same, repeatMark, List.mem_singleton] at blank
  exact absurd blank (by decide)

/-- A row and the next offset are so many lines apart. -/
theorem filling_eq (l : Layout) {width : Nat} (positive : 0 < width) (before : Row) (count : Nat) :
    l.filling width before (before.offset + (count + 1) * width) =
      (List.range' (before.offset + width) count width).map
        fun (offset : Nat) => l.line width offset before.data := by
  have between :
      (before.offset + (count + 1) * width - 1 - before.offset) / width = count := by
    have distance : before.offset + (count + 1) * width - 1 - before.offset =
        width * count + (width - 1) := by
      rw [Nat.succ_mul, Nat.mul_comm]
      omega
    rw [distance, Nat.mul_add_div positive, Nat.div_eq_of_lt (by omega), Nat.add_zero]
  rw [filling, between]

end Layout

namespace DumpOptions

variable {o : DumpOptions} {row : Row} {rows : List Row} {before : Option Bytes} {inRun : Bool}

theorem linesFrom_of_repeats (squeezes : o.squeeze = true) (again : row.Repeats o.width before)
    (inRun : Bool) (rows : List Row) :
    o.linesFrom before inRun (row :: rows) =
      if inRun then o.linesFrom before true rows
      else repeatMark :: o.linesFrom before true rows := by
  rw [linesFrom, if_pos (by simp [squeezes, again.1, again.2])]

theorem linesFrom_of_not_repeats (fresh : ¬ row.Repeats o.width before) (inRun : Bool)
    (rows : List Row) :
    o.linesFrom before inRun (row :: rows) =
      o.lineOf row :: o.linesFrom (some row.data) false rows := by
  rw [linesFrom, if_neg]
  intro again
  simp only [Bool.and_eq_true, beq_iff_eq] at again
  exact fresh ⟨again.1.2, again.2⟩

theorem lineOf_ne_repeatMark (o : DumpOptions) (row : Row) : o.lineOf row ≠ repeatMark :=
  o.layout.line_ne_repeatMark o.width row.offset row.data

/-- A printed row is read back from its line. -/
theorem readLine_lineOf {start : Nat} {data : Bytes} (cut : Regroups o.width start data rows)
    (member : row ∈ rows) :
    o.layout.readLine (o.lineOf row) = ⟨row.offset, o.layout.shownBytes row.data⟩ :=
  o.layout.readLine_line row.offset (cut.within row member)

/-! ## Putting rows back -/

/-- Rows are put back, outside of a run and inside of one. In both situations a full row was
printed at a place; inside of a run, a number of rows with its bytes have gone by since. -/
structure Restores (o : DumpOptions) (start : Nat) (rows : List Row) : Prop where
  outside : ∀ (place : Nat) (data : Bytes), place + o.width = start → data.length = o.width →
    o.layout.expandFrom o.width (endOffset start rows) (some ⟨place, data⟩)
      (o.linesFrom (some data) false rows) = rows.map o.lineOf
  inside : ∀ (place gone : Nat) (data : Bytes), place + (gone + 1) * o.width = start →
    data.length = o.width →
    o.layout.filling o.width ⟨place, data⟩
        (o.layout.nextOffset (endOffset start rows) (o.linesFrom (some data) true rows)) ++
      o.layout.expandFrom o.width (endOffset start rows) (some ⟨place, data⟩)
        (o.linesFrom (some data) true rows) =
    (List.range' (place + o.width) gone o.width).map
        (fun (offset : Nat) => o.layout.line o.width offset data) ++ rows.map o.lineOf

namespace Restores

variable {start : Nat} {data : Bytes}

theorem nil (o : DumpOptions) (start : Nat) : Restores o start [] where
  outside := fun _ _ _ _ => rfl
  inside := by
    intro place gone data reached full
    subst reached
    exact congrArg (· ++ []) (o.layout.filling_eq o.width_pos ⟨place, data⟩ gone)

/-- Behind a row that is printed, the rows are put back. -/
theorem printed (cut : Regroups o.width start data (row :: rows))
    (later : Restores o (start + o.width) rows) (before : Option Row) :
    o.layout.expandFrom o.width (endOffset start (row :: rows)) before
      (o.lineOf row :: o.linesFrom (some row.data) false rows) = (row :: rows).map o.lineOf := by
  rw [Layout.expandFrom, if_neg (o.lineOf_ne_repeatMark row), List.map_cons]
  cases rows with
  | nil => rfl
  | cons next rows =>
      -- Another row follows, so this one is full and its bytes are shown as they are.
      have full : row.data.length = o.width := cut.full 0 (by simp) (by simp)
      have place : row.offset = start := cut.first_offset
      have even : row.data.length % 2 = 0 := by rw [full, o.width_even]
      rw [readLine_lineOf cut List.mem_cons_self, Layout.shownBytes_of_even _ even, endOffset,
        full, place]
      exact congrArg _ (later.outside start row.data rfl full)

theorem cons (squeezes : o.squeeze = true) (cut : Regroups o.width start data (row :: rows))
    (later : Restores o (start + o.width) rows) : Restores o start (row :: rows) := by
  have place : row.offset = start := cut.first_offset
  -- A row that is left out is full, so the dump ends where it ends for the rows behind it.
  have stop (full : row.data.length = o.width) :
      endOffset start (row :: rows) = endOffset (start + o.width) rows := by
    rw [endOffset, place, full]
  constructor
  case outside =>
    intro before data reached _
    by_cases again : row.Repeats o.width (some data)
    · obtain ⟨same, full⟩ := again
      obtain rfl : data = row.data := Option.some.inj same
      have restored := later.inside before 1 row.data (by omega) full
      rw [linesFrom_of_repeats squeezes ⟨rfl, full⟩, if_neg Bool.false_ne_true, stop full,
        Layout.expandFrom, if_pos rfl]
      refine restored.trans ?_
      rw [reached, ← place]
      rfl
    · rw [linesFrom_of_not_repeats again]
      exact printed cut later _
  case inside =>
    intro before gone data reached full
    by_cases again : row.Repeats o.width (some data)
    · obtain rfl : data = row.data := Option.some.inj again.1
      have reached' : before + (gone + 1 + 1) * o.width = start + o.width := by
        rw [Nat.succ_mul]
        omega
      have restored := later.inside before (gone + 1) row.data reached' full
      have last : before + o.width + o.width * gone = row.offset := by
        rw [place, ← reached, Nat.succ_mul, Nat.mul_comm gone]
        omega
      rw [linesFrom_of_repeats squeezes again, if_pos rfl, stop full, restored, List.range'_concat,
        List.map_append, last, List.append_assoc]
      rfl
    · have next : (o.layout.readLine (o.lineOf row)).offset = before + (gone + 1) * o.width := by
        rw [readLine_lineOf cut List.mem_cons_self, place, reached]
      rw [linesFrom_of_not_repeats again, printed cut later]
      show o.layout.filling o.width _ (o.layout.readLine (o.lineOf row)).offset ++ _ = _
      rw [next, o.layout.filling_eq o.width_pos ⟨before, data⟩ gone]

theorem of_regroups (squeezes : o.squeeze = true) (cut : Regroups o.width start data rows) :
    Restores o start rows := by
  induction rows generalizing start data with
  | nil => exact .nil o start
  | cons row rows ih => exact .cons squeezes cut (ih cut.tail)

end Restores

/-- A squeezed dump holds enough to put every row back. -/
theorem expand_linesFrom {start : Nat} {data : Bytes} (squeezes : o.squeeze = true)
    (cut : Regroups o.width start data rows) (nothing : Nat) :
    o.layout.expand o.width (endOffset nothing rows) (o.linesFrom none false rows) =
      rows.map o.lineOf := by
  cases rows with
  | nil => rfl
  | cons row rows =>
      have fresh : ¬ row.Repeats o.width none := fun again => nomatch again.1
      rw [linesFrom_of_not_repeats fresh]
      exact Restores.printed cut (.of_regroups squeezes cut.tail) none

/-! ## Marks -/

/-- A mark stands only behind a printed line. -/
theorem head?_linesFrom_ne (rows : List Row) (settled : inRun = true ∨ before = none) :
    (o.linesFrom before inRun rows).head? ≠ some repeatMark := by
  induction rows with
  | nil => nofun
  | cons row rows ih =>
      rw [linesFrom]
      split
      next again =>
        obtain rfl | rfl := settled
        · exact ih
        · simp at again
      next => exact fun marked => o.lineOf_ne_repeatMark row (Option.some.inj marked)

theorem not_marks_infix (rows : List Row) (before : Option Bytes) (inRun : Bool) :
    ¬ [repeatMark, repeatMark] <:+: o.linesFrom before inRun rows := by
  induction rows generalizing before inRun with
  | nil => simp [linesFrom]
  | cons row rows ih =>
      intro marks
      rw [linesFrom] at marks
      split at marks
      next =>
        split at marks
        next => exact ih before true marks
        next =>
          obtain first | later := List.infix_cons_iff.mp marks
          · have unmarked : (o.linesFrom before true rows).head? ≠ some repeatMark :=
              head?_linesFrom_ne rows (.inl rfl)
            obtain ⟨rest, lines⟩ := (List.cons_prefix_cons.mp first).2
            apply unmarked
            rw [← lines]
            rfl
          · exact ih before true later
      next =>
        obtain first | later := List.infix_cons_iff.mp marks
        · exact o.lineOf_ne_repeatMark row (List.cons_prefix_cons.mp first).1.symm
        · exact ih (some row.data) false later

/-- Apart from the marks, the lines are those of the rows that do not repeat the row before. -/
theorem filter_linesFrom (squeezes : o.squeeze = true) (rows : List Row) (before : Option Bytes)
    (inRun : Bool) :
    (o.linesFrom before inRun rows).filter (· ≠ repeatMark) =
      (freshRows o.width before rows).map o.lineOf := by
  induction rows generalizing before inRun with
  | nil => rfl
  | cons row rows ih =>
      by_cases again : row.Repeats o.width before
      · rw [linesFrom_of_repeats squeezes again, freshRows, if_pos again, ← again.1,
          ← ih before true]
        cases inRun with
        | true => rfl
        | false => rfl
      · rw [linesFrom_of_not_repeats again, freshRows, if_neg again, List.map_cons,
          ← ih (some row.data) false, List.filter_cons_of_pos (by simp [lineOf_ne_repeatMark])]

theorem linesFrom_concat_of_short (short : row.data.length < o.width) (rows : List Row)
    (before : Option Bytes) (inRun : Bool) :
    o.linesFrom before inRun (rows ++ [row]) = o.linesFrom before inRun rows ++ [o.lineOf row] := by
  induction rows generalizing before inRun with
  | nil =>
      have fresh : ¬ row.Repeats o.width before := fun again => Nat.ne_of_lt short again.2
      rw [List.nil_append, linesFrom_of_not_repeats fresh]
      rfl
  | cons first rows ih =>
      rw [List.cons_append, linesFrom, linesFrom]
      split
      next => split <;> simp [ih]
      next => simp [ih]

end DumpOptions

/-- Squeezing loses nothing: with the lines put back in for which its marks stand, the squeezed dump
of a stream is the full dump. A mark is never the first line and never follows another; a last row
that is short is always printed; and besides the marks there are just the lines of the rows that are
short or differ from the row before. It does not matter whether the stream fails. -/
theorem squeezed_dump_expands (o : DumpOptions) (s : Stream) :
    let squeezed := Dump.ofStream { o with squeeze := true } s
    let full := Dump.ofStream { o with squeeze := false } s
    let rows := (readRows o s).rows
    o.layout.expand o.width (endOffset o.skip rows) squeezed.lines = full.lines ∧
      squeezed.fault? = full.fault? ∧
      squeezed.lines.head? ≠ some repeatMark ∧
      ¬ [repeatMark, repeatMark] <:+: squeezed.lines ∧
      (∀ row, rows.getLast? = some row → row.data.length < o.width →
        squeezed.lines.getLast? = some (o.layout.line o.width row.offset row.data)) ∧
      squeezed.lines.filter (· ≠ repeatMark) = (freshRows o.width none rows).map o.lineOf := by
  intro squeezed full rows
  obtain ⟨start, data, cut⟩ := exists_regroups_readRows o s
  have lines : squeezed.lines = DumpOptions.linesFrom { o with squeeze := true } none false rows :=
    dumpLines_eq _ rows
  have all : full.lines = rows.map o.lineOf :=
    lines_of_not_squeeze (o := { o with squeeze := false }) rfl s
  rw [lines, all]
  refine ⟨?_, rfl, ?_, ?_, ?_, ?_⟩
  · exact DumpOptions.expand_linesFrom (o := { o with squeeze := true }) rfl cut o.skip
  · exact DumpOptions.head?_linesFrom_ne rows (.inr rfl)
  · exact DumpOptions.not_marks_infix rows none false
  · intro row last short
    obtain ⟨earlier, split⟩ := List.getLast?_eq_some_iff.mp last
    rw [split, DumpOptions.linesFrom_concat_of_short (o := { o with squeeze := true }) short]
    exact List.getLast?_concat
  · exact DumpOptions.filter_linesFrom rfl rows none false

end Bytewise
