import Bytewise.Dump.Layout

/-!
# Rows and dumps

The bytes of an input are regrouped into rows of the full width, however the reads were split; only
the last row may be shorter. A row knows its absolute offset. A dump is the lines of the rows, in
which a run of rows equal to the one before is replaced by a single mark.

Rows are made as the bytes come in, so an input that fails midway still yields the rows before the
failure.
-/

namespace Bytewise

/-- Bytes of the input that are shown on one line, and the offset of the first. -/
structure Row where
  offset : Nat
  data : Bytes
  deriving DecidableEq, Repr

/-- Rows in the making: where the next one starts, and the bytes it has so far. -/
structure Grouping where
  offset : Nat
  pending : Bytes := []

namespace Grouping

/-- Cutting off a full row leaves fewer bytes. -/
theorem length_drop_lt {width : Nat} {pending : Bytes}
    (h : ¬(width = 0 ∨ pending.length < width)) :
    (pending.drop width).length < pending.length := by
  rw [List.length_drop]
  omega

/-- Cut full rows from the bytes at hand; rows made so far are kept in reverse. -/
def cut (width : Nat) (done : List Row) (g : Grouping) : List Row × Grouping :=
  if _h : width = 0 ∨ g.pending.length < width then (done, g)
  else
    cut width (⟨g.offset, g.pending.take width⟩ :: done) ⟨g.offset + width, g.pending.drop width⟩
  termination_by g.pending.length
  decreasing_by exact length_drop_lt _h

def feed (width : Nat) (done : List Row) (g : Grouping) (piece : Bytes) : List Row × Grouping :=
  cut width done { g with pending := g.pending ++ piece }

/-- The short row that is left at the end of the input. -/
def finish (done : List Row) (g : Grouping) : List Row :=
  if g.pending.isEmpty then done else ⟨g.offset, g.pending⟩ :: done

end Grouping

/-- The rows of an input, the fault that ended it early, and the stream behind what was read. -/
structure RowReading where
  rows : List Row
  fault? : Option Fault
  after : Stream

namespace RowReading

/-- How much of the limit is left after a piece. -/
def leftAfter (left : Option Nat) (piece : Bytes) : Option Nat := left.map (· - piece.length)

/-- Read pieces until the end of the input or of the limit, making rows on the way. -/
def collect (width : Nat) (left : Option Nat) (done : List Row) (g : Grouping) (s : Stream) :
    RowReading :=
  if left = some 0 then ⟨(g.finish done).reverse, none, s⟩
  else
    let want := match left with
      | some n => min Stream.pieceSize n
      | none => Stream.pieceSize
    match h : s.read (.atMost want) with
    | .error fault => ⟨done.reverse, some fault, s⟩
    | .ok (piece, s') =>
      if hp : piece = [] then ⟨(g.finish done).reverse, none, s'⟩
      else
        have := Stream.length_ahead_lt h hp
        let next := g.feed width done piece
        collect width (leftAfter left piece) next.1 next.2 s'
  termination_by s.ahead.length

end RowReading

def readRows (o : DumpOptions) (s : Stream) : RowReading :=
  match s.skip o.skip with
  | .error fault => ⟨[], some fault, s⟩
  | .ok (skipped, s') => RowReading.collect o.width o.length [] ⟨skipped, []⟩ s'

/-- The mark that stands for a run of repeated lines. -/
def repeatMark : List Char := ['*']

/-- A dump in the making: its lines in reverse, the row printed last, and whether a mark stands for
rows after it. -/
structure Squeezing where
  lines : List (List Char) := []
  previous : Option Bytes := none
  inRun : Bool := false

namespace Squeezing

/-- Add a row: a full row equal to the last one printed only makes sure that a mark is there. -/
def add (o : DumpOptions) (s : Squeezing) (r : Row) : Squeezing :=
  if o.squeeze && s.previous == some r.data && r.data.length == o.width then
    if s.inRun then s else { s with lines := repeatMark :: s.lines, inRun := true }
  else ⟨o.layout.line o.width r.offset r.data :: s.lines, some r.data, false⟩

end Squeezing

def dumpLines (o : DumpOptions) (rows : List Row) : List (List Char) :=
  (rows.foldl (Squeezing.add o) {}).lines.reverse

/-- A dump: its lines, the fault that ended it early, and the stream behind what was read. -/
structure Dump where
  lines : List (List Char)
  fault? : Option Fault
  after : Stream

def Dump.ofStream (o : DumpOptions) (s : Stream) : Dump :=
  let reading := readRows o s
  ⟨dumpLines o reading.rows, reading.fault?, reading.after⟩

end Bytewise
