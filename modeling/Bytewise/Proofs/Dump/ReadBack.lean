import Bytewise.Proofs.Dump.Rows
import Bytewise.Proofs.Numeral

/-!
# Reading a dump back

`Layout.readLine` reads one line of a dump. The offset ends where the hexadecimal digits end,
however many there are, and behind it numbers stand in columns of a fixed size. The reader has to
know the layout, but not how many bytes a line has room for.

The columns of the canonical layout are read up to the first one that is blank. There always is one:
either bytes are missing, or the blank in front of the printable characters is met. So those
characters, which may themselves look like digits, blanks or bars, are never looked at.

A word is read as two bytes, also where only one byte was left for it. What the layouts of words
give back is therefore the bytes with a zero byte behind an odd last one (`padEven`).
-/

namespace Bytewise

/-- Bytes with a zero byte behind them if their number is odd. -/
def padEven (data : Bytes) : Bytes := if data.length % 2 = 0 then data else data ++ [0]

theorem padEven_of_even {data : Bytes} (even : data.length % 2 = 0) : padEven data = data :=
  if_pos even

/-- Only the end of the data is padded. -/
theorem append_padEven (first rest : Bytes) (even : first.length % 2 = 0) :
    first ++ padEven rest = padEven (first ++ rest) := by
  have parity : (first ++ rest).length % 2 = rest.length % 2 := by
    rw [List.length_append]
    omega
  unfold padEven
  rw [parity]
  split
  · rfl
  · exact (List.append_assoc ..).symm

namespace Layout

/-! ## The reader -/

/-- The number of blanks behind a column of the canonical layout. -/
def gapWidth (column : Nat) : Nat :=
  (if column % 2 = 1 then 1 else 0) + (if column = 7 then 1 else 0)

/-- Read the columns of the canonical layout from the given one on, up to the first that is blank.
-/
def readColumns (column : Nat) (cs : List Char) : Bytes :=
  match cs with
  | high :: low :: rest =>
    if Numeral.isDigit 16 high then
      .ofNat (Numeral.value 16 [high, low]) ::
        readColumns (column + 1) (rest.drop (gapWidth column))
    else []
  | _ => []
  termination_by cs.length
  decreasing_by
    simp only [List.length_drop, List.length_cons]
    omega

/-- Read numbers of a fixed number of digits, each with a blank in front. -/
def readNumbers (base size : Nat) (cs : List Char) : List Nat :=
  match cs with
  | [] => []
  | _ :: rest => Numeral.value base (rest.take size) :: readNumbers base size (rest.drop size)
  termination_by cs.length
  decreasing_by
    simp only [List.length_drop, List.length_cons]
    omega

def wordBytes (word : Nat) : Bytes := [.ofNat word, .ofNat (word / 256)]

def readBytes (l : Layout) (cs : List Char) : Bytes :=
  match l with
  | .canonical => readColumns 0 (cs.drop 2)
  | .oneByteHex => (readNumbers 16 2 (cs.drop 1)).map .ofNat
  | .twoByteDecimal => (readNumbers 10 5 (cs.drop 1)).flatMap wordBytes
  | .twoByteOctal => (readNumbers 8 6 (cs.drop 1)).flatMap wordBytes

def readLine (l : Layout) (cs : List Char) : Row :=
  ⟨Numeral.value 16 (cs.takeWhile (Numeral.isDigit 16)),
    l.readBytes (cs.dropWhile (Numeral.isDigit 16))⟩

def shownBytes (l : Layout) (data : Bytes) : Bytes :=
  match l with
  | .canonical => data
  | .oneByteHex => data
  | .twoByteDecimal => padEven data
  | .twoByteOctal => padEven data

theorem shownBytes_of_bytes {l : Layout} (bytes : l = .canonical ∨ l = .oneByteHex)
    (data : Bytes) : l.shownBytes data = data := by
  obtain rfl | rfl := bytes <;> rfl

theorem shownBytes_of_words {l : Layout} (words : l = .twoByteDecimal ∨ l = .twoByteOctal)
    (data : Bytes) : l.shownBytes data = padEven data := by
  obtain rfl | rfl := words <;> rfl

theorem shownBytes_of_even (l : Layout) {data : Bytes} (even : data.length % 2 = 0) :
    l.shownBytes data = data := by
  cases l with
  | canonical => rfl
  | oneByteHex => rfl
  | twoByteDecimal => exact padEven_of_even even
  | twoByteOctal => exact padEven_of_even even

/-! ## Columns -/

theorem not_isDigit_blank (base : Nat) : Numeral.isDigit base ' ' = false := rfl

/-- A blank column ends the columns. -/
theorem readColumns_blank (column : Nat) (rest : List Char) :
    readColumns column (' ' :: rest) = [] := by
  cases rest with
  | nil => rw [readColumns]; simp
  | cons c rest => rw [readColumns, if_neg (by simp [not_isDigit_blank])]

/-- The two digits of a byte. -/
theorem exists_byte_digits (b : UInt8) :
    ∃ high low, Numeral.zeroPadded 16 2 b.toNat = [high, low] ∧
      Numeral.isDigit 16 high = true ∧ Numeral.value 16 [high, low] = b.toNat := by
  have two : (Numeral.zeroPadded 16 2 b.toNat).length = 2 :=
    Numeral.length_zeroPadded (by decide) (by decide) b.toNat_lt
  obtain ⟨high, low, digits⟩ := List.length_eq_two.mp two
  refine ⟨high, low, digits, ?_, ?_⟩
  · have member : high ∈ Numeral.zeroPadded 16 2 b.toNat := by simp [digits]
    exact Numeral.isDigit_of_mem_zeroPadded (by decide) (by decide) member
  · rw [← digits]
    exact Numeral.value_zeroPadded (by decide) (by decide) 2 b.toNat

theorem readColumns_hexColumns {left : Nat} {data : Bytes} (column : Nat) (rest : List Char)
    (fits : data.length ≤ left) :
    readColumns column (hexColumns column left data ++ ' ' :: rest) = data := by
  induction left generalizing column data with
  | zero =>
      obtain rfl : data = [] := List.length_eq_zero_iff.mp (Nat.le_zero.mp fits)
      exact readColumns_blank column rest
  | succ left ih =>
      cases data with
      | nil => exact readColumns_blank column _
      | cons b data =>
          obtain ⟨high, low, digits, isDigit, value⟩ := exists_byte_digits b
          have gap : ((if column % 2 = 1 then [' '] else []) ++
              (if column = 7 then [' '] else []) : List Char).length = gapWidth column := by
            rw [gapWidth]
            split <;> split <;> rfl
          have later := ih (column + 1) (Nat.le_of_succ_le_succ fits)
          simp only [hexColumns, digits, List.tail_cons, List.append_assoc, List.cons_append,
            List.nil_append]
          rw [readColumns, if_pos isDigit, value, ← gap, ← List.append_assoc, List.drop_left,
            later, UInt8.ofNat_toNat]

theorem readNumbers_flatMap (base size : Nat) {ns : List Nat} (positional : 1 < base)
    (valid : base ≤ 16) (wide : 0 < size) (fits : ∀ n ∈ ns, n < base ^ size) :
    readNumbers base size (ns.flatMap fun n => ' ' :: Numeral.zeroPadded base size n) = ns := by
  induction ns with
  | nil => rw [List.flatMap_nil, readNumbers]
  | cons n ns ih =>
      obtain ⟨first, others⟩ := List.forall_mem_cons.mp fits
      have digits := Numeral.length_zeroPadded positional wide first
      rw [List.flatMap_cons, List.cons_append, readNumbers, List.take_left' digits,
        List.drop_left' digits, Numeral.value_zeroPadded positional valid, ih others]

/-! ## Words -/

theorem words_lt {data : Bytes} : ∀ word ∈ words data, word < 65536 := by
  fun_induction words data with
  | case1 => nofun
  | case2 a =>
      intro word member
      obtain rfl := List.mem_singleton.mp member
      have := a.toNat_lt
      omega
  | case3 a b rest ih =>
      intro word member
      obtain rfl | member := List.mem_cons.mp member
      · have := a.toNat_lt
        have := b.toNat_lt
        omega
      · exact ih word member

theorem wordBytes_eq (a b : UInt8) : wordBytes (a.toNat + 256 * b.toNat) = [a, b] := by
  have small := a.toNat_lt
  have low : UInt8.ofNat (a.toNat + 256 * b.toNat) = a := by
    rw [← UInt8.toNat_inj, UInt8.toNat_ofNat']
    omega
  have high : (a.toNat + 256 * b.toNat) / 256 = b.toNat := by omega
  rw [wordBytes, low, high, UInt8.ofNat_toNat]

/-- Words give back the bytes, with a zero byte for the one that an odd last byte lacks. -/
theorem flatMap_wordBytes_words (data : Bytes) : (words data).flatMap wordBytes = padEven data := by
  fun_induction words data with
  | case1 => rfl
  | case2 a =>
      have alone : wordBytes a.toNat = [a, 0] := by simpa using wordBytes_eq a 0
      rw [List.flatMap_singleton, alone]
      rfl
  | case3 a b rest ih =>
      rw [List.flatMap_cons, wordBytes_eq, ih]
      exact append_padEven [a, b] rest (Nat.mod_self 2)

/-! ## Lines -/

/-- What stands behind the offset of a line. -/
def lineTail (l : Layout) (width : Nat) (data : Bytes) : List Char :=
  match l with
  | .canonical =>
    [' ', ' '] ++ (hexColumns 0 width data ++ ' ' :: '|' :: (data.map byteChar ++ ['|']))
  | .oneByteHex => ' ' :: (data.map UInt8.toNat).flatMap fun b => ' ' :: Numeral.zeroPadded 16 2 b
  | .twoByteDecimal => ' ' :: (words data).flatMap fun w => ' ' :: Numeral.zeroPadded 10 5 w
  | .twoByteOctal => ' ' :: (words data).flatMap fun w => ' ' :: Numeral.zeroPadded 8 6 w

theorem line_eq_append (l : Layout) (width offset : Nat) (data : Bytes) :
    l.line width offset data = Numeral.zeroPadded 16 8 offset ++ l.lineTail width data := by
  cases l with
  | canonical => simp [line, lineTail, offsetField, Numeral.signedZeroPadded]
  | oneByteHex =>
      rw [lineTail, List.flatMap_map]
      rfl
  | twoByteDecimal => rfl
  | twoByteOctal => rfl

theorem head?_lineTail (l : Layout) (width : Nat) (data : Bytes) :
    (l.lineTail width data).head? = some ' ' := by
  cases l <;> rfl

theorem readBytes_lineTail (l : Layout) {width : Nat} {data : Bytes} (fits : data.length ≤ width) :
    l.readBytes (l.lineTail width data) = l.shownBytes data := by
  have below {bound : Nat} (enough : 65536 ≤ bound) : ∀ word ∈ words data, word < bound :=
    fun word member => Nat.lt_of_lt_of_le (words_lt word member) enough
  cases l with
  | canonical => exact readColumns_hexColumns 0 _ fits
  | oneByteHex =>
      have bytes : ∀ n ∈ data.map UInt8.toNat, n < 16 ^ 2 := by
        intro n member
        obtain ⟨b, -, rfl⟩ := List.mem_map.mp member
        exact b.toNat_lt
      have numbers := readNumbers_flatMap 16 2 (by decide) (by decide) (by decide) bytes
      have restored := congrArg (List.map UInt8.ofNat) numbers
      rw [List.map_map] at restored
      refine restored.trans ?_
      simp [shownBytes, Function.comp_def]
  | twoByteDecimal =>
      have numbers := readNumbers_flatMap 10 5 (by decide) (by decide) (by decide)
        (below (by decide))
      exact (congrArg (List.flatMap wordBytes) numbers).trans (flatMap_wordBytes_words data)
  | twoByteOctal =>
      have numbers := readNumbers_flatMap 8 6 (by decide) (by decide) (by decide)
        (below (by decide))
      exact (congrArg (List.flatMap wordBytes) numbers).trans (flatMap_wordBytes_words data)

/-- The digits of the offset end where the line's tail begins. -/
theorem span_line (l : Layout) (width offset : Nat) (data : Bytes) :
    (l.line width offset data).takeWhile (Numeral.isDigit 16) = Numeral.zeroPadded 16 8 offset ∧
      (l.line width offset data).dropWhile (Numeral.isDigit 16) = l.lineTail width data := by
  have digits : ∀ c ∈ Numeral.zeroPadded 16 8 offset, Numeral.isDigit 16 c = true :=
    fun c member => Numeral.isDigit_of_mem_zeroPadded (by decide) (by decide) member
  obtain ⟨rest, tail⟩ := List.head?_eq_some_iff.mp (l.head?_lineTail width data)
  rw [line_eq_append, List.takeWhile_append_of_pos digits, List.dropWhile_append_of_pos digits,
    tail]
  simp [not_isDigit_blank]

/-- A line that has room for the bytes shows their offset and the bytes. -/
theorem readLine_line (l : Layout) {width : Nat} (offset : Nat) {data : Bytes}
    (fits : data.length ≤ width) :
    l.readLine (l.line width offset data) = ⟨offset, l.shownBytes data⟩ := by
  obtain ⟨digits, tail⟩ := l.span_line width offset data
  rw [readLine, digits, tail, readBytes_lineTail l fits,
    Numeral.value_zeroPadded (by decide) (by decide)]

end Layout

/-! ## The lines of a dump -/

def DumpOptions.lineOf (o : DumpOptions) (row : Row) : List Char :=
  o.layout.line o.width row.offset row.data

/-- The lines of rows, when the row printed last and whether a mark stands behind it are known. -/
def DumpOptions.linesFrom (o : DumpOptions) (previous : Option Bytes) (inRun : Bool) :
    List Row → List (List Char)
  | [] => []
  | row :: rows =>
    if o.squeeze && previous == some row.data && row.data.length == o.width then
      if inRun then o.linesFrom previous true rows
      else repeatMark :: o.linesFrom previous true rows
    else o.lineOf row :: o.linesFrom (some row.data) false rows

theorem lines_foldl_add (o : DumpOptions) (rows : List Row) (s : Squeezing) :
    (rows.foldl (Squeezing.add o) s).lines.reverse =
      s.lines.reverse ++ o.linesFrom s.previous s.inRun rows := by
  induction rows generalizing s with
  | nil => exact (List.append_nil _).symm
  | cons row rows ih =>
      rw [List.foldl_cons, ih, Squeezing.add, DumpOptions.linesFrom]
      split
      next =>
        cases running : s.inRun with
        | true => simp [running]
        | false => simp
      next => simp [DumpOptions.lineOf]

theorem dumpLines_eq (o : DumpOptions) (rows : List Row) :
    dumpLines o rows = o.linesFrom none false rows :=
  lines_foldl_add o rows {}

theorem DumpOptions.linesFrom_of_not_squeeze {o : DumpOptions} (every : o.squeeze = false)
    (previous : Option Bytes) (inRun : Bool) (rows : List Row) :
    o.linesFrom previous inRun rows = rows.map o.lineOf := by
  induction rows generalizing previous inRun with
  | nil => rfl
  | cons row rows ih =>
      rw [linesFrom, if_neg (by simp [every]), ih, List.map_cons]

theorem lines_of_not_squeeze {o : DumpOptions} (every : o.squeeze = false) (s : Stream) :
    (Dump.ofStream o s).lines = (readRows o s).rows.map o.lineOf := by
  show dumpLines o (readRows o s).rows = _
  rw [dumpLines_eq, DumpOptions.linesFrom_of_not_squeeze every]

/-- Rows of an even width are padded at their end only. -/
theorem Regroups.flatten_padEven {width start : Nat} {data : Bytes} {rows : List Row}
    (cut : Regroups width start data rows) (even : width % 2 = 0) :
    (rows.map fun row => padEven row.data).flatten = padEven data := by
  induction rows generalizing start data with
  | nil =>
      have nothing : [] = data := cut.covers
      subst nothing
      rfl
  | cons row rows ih =>
      have later := ih cut.tail
      rw [List.map_cons, List.flatten_cons, later, cut.first_data.1]
      cases rows with
      | nil =>
          have nothing : [] = data.drop width := cut.first_data.2
          rw [← nothing]
          have all : data.take width = data :=
            List.take_of_length_le (List.drop_eq_nil_iff.mp nothing.symm)
          rw [all]
          exact List.append_nil _
      | cons next rows =>
          have full : (data.take width).length = width := by
            rw [← cut.first_data.1]
            exact cut.full 0 (by simp) (by simp)
          rw [← full] at even
          rw [padEven_of_even even, append_padEven _ _ even, List.take_append_drop]

variable {o : DumpOptions}

/-- Each line is read as its row, with the bytes as the layout shows them. -/
theorem map_readLine_lines (every : o.squeeze = false) (s : Stream) :
    (Dump.ofStream o s).lines.map o.layout.readLine =
      (readRows o s).rows.map fun row => ⟨row.offset, o.layout.shownBytes row.data⟩ := by
  obtain ⟨start, data, cut⟩ := exists_regroups_readRows o s
  rw [lines_of_not_squeeze every, List.map_map]
  apply List.map_congr_left
  intro row member
  exact o.layout.readLine_line row.offset (cut.within row member)

theorem readLines_of_bytes (every : o.squeeze = false)
    (bytes : o.layout = .canonical ∨ o.layout = .oneByteHex) (s : Stream) :
    (Dump.ofStream o s).lines.map o.layout.readLine = (readRows o s).rows := by
  rw [map_readLine_lines every]
  simp only [Layout.shownBytes_of_bytes bytes]
  exact List.map_id _

theorem readLines_of_words (every : o.squeeze = false)
    (words : o.layout = .twoByteDecimal ∨ o.layout = .twoByteOctal) (s : Stream) :
    ((Dump.ofStream o s).lines.map o.layout.readLine).map Row.offset =
        (readRows o s).rows.map Row.offset ∧
      (((Dump.ofStream o s).lines.map o.layout.readLine).map Row.data).flatten =
        padEven ((readRows o s).rows.map Row.data).flatten := by
  obtain ⟨start, data, cut⟩ := exists_regroups_readRows o s
  rw [map_readLine_lines every, List.map_map, List.map_map]
  simp only [Layout.shownBytes_of_words words]
  refine ⟨rfl, ?_⟩
  rw [cut.covers]
  exact cut.flatten_padEven o.width_even

/-- From the lines of a dump in which no rows are squeezed the rows can be read back, whatever the
bytes, the offsets and the width are: as they are from a layout of bytes, and padded to even length
from a layout of words. So inputs with the same lines have the same rows, or the same up to that
padding. -/
theorem dump_reads_back (o : DumpOptions) (s : Stream) (every : o.squeeze = false) :
    (o.layout = .canonical ∨ o.layout = .oneByteHex →
      (Dump.ofStream o s).lines.map o.layout.readLine = (readRows o s).rows ∧
      ∀ (o' : DumpOptions) (s' : Stream), o'.layout = o.layout → o'.squeeze = false →
        (Dump.ofStream o' s').lines = (Dump.ofStream o s).lines →
          (readRows o' s').rows = (readRows o s).rows) ∧
    (o.layout = .twoByteDecimal ∨ o.layout = .twoByteOctal →
      ((Dump.ofStream o s).lines.map o.layout.readLine).map Row.offset =
        (readRows o s).rows.map Row.offset ∧
      (((Dump.ofStream o s).lines.map o.layout.readLine).map Row.data).flatten =
        padEven ((readRows o s).rows.map Row.data).flatten ∧
      ∀ (o' : DumpOptions) (s' : Stream), o'.layout = o.layout → o'.squeeze = false →
        (Dump.ofStream o' s').lines = (Dump.ofStream o s).lines →
          (readRows o' s').rows.map Row.offset = (readRows o s).rows.map Row.offset ∧
          padEven ((readRows o' s').rows.map Row.data).flatten =
            padEven ((readRows o s).rows.map Row.data).flatten) := by
  refine ⟨fun bytes => ?_, fun words => ?_⟩
  · have read := readLines_of_bytes every bytes s
    refine ⟨read, fun o' s' layout every' lines => ?_⟩
    have read' := readLines_of_bytes every' (layout ▸ bytes) s'
    rw [← read', lines, layout, read]
  · obtain ⟨offsets, data⟩ := readLines_of_words every words s
    refine ⟨offsets, data, fun o' s' layout every' lines => ?_⟩
    obtain ⟨offsets', data'⟩ := readLines_of_words every' (layout ▸ words) s'
    rw [← offsets', ← data', lines, layout]
    exact ⟨offsets, data⟩

/-- Five bytes in lines of four, whose printable characters are a bar, a blank and digits. -/
theorem dump_reads_back_bars :
    let o : DumpOptions := { squeeze := false, width := 4 }
    let s : Stream := .ofBytes [0x7C, 0x20, 0x66, 0x00, 0x31]
    (Dump.ofStream o s).lines =
        ["00000000  7c20 6600  || f.|".toList, "00000004  31         |1|".toList] ∧
      (Dump.ofStream o s).lines.map o.layout.readLine =
        [⟨0, [0x7C, 0x20, 0x66, 0x00]⟩, ⟨4, [0x31]⟩] := by
  intro o s
  have cut : Regroups 4 0 [0x7C, 0x20, 0x66, 0x00, 0x31]
      [⟨0, [0x7C, 0x20, 0x66, 0x00]⟩, ⟨4, [0x31]⟩] :=
    ⟨rfl, by decide, by decide, by decide, by decide⟩
  have rows := (regroups_readRows (o := o) (Stream.delivers_ofBytes _) rfl (by decide)).2.unique cut
  refine ⟨?_, ((dump_reads_back o s rfl).1 (.inl rfl)).1.trans rows⟩
  rw [lines_of_not_squeeze rfl, rows]
  decide

end Bytewise
