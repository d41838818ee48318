import Bytewise.FileTree.Supply
import Bytewise.Text.Blank
import Bytewise.Value.Basic

/-!
# Counting lines, words, characters and bytes

A word is a maximal run of bytes that are not blank in the C locale. The counter remembers whether
the last byte was inside a word, so a word that is cut by a chunk boundary is counted once. Every
byte counts as one character.

A file that is larger than the buffer is counted in slices of the mapped file, any other by reading.
Both give the same counts whenever the buffer size is positive; the cases below zero and at zero are
those of the two ways taken literally.
-/

namespace Bytewise

/-- Counts of one input, or the running total of several. -/
structure Tally where
  lines : Int := 0
  words : Int := 0
  chars : Int := 0
  bytes : Int := 0
  deriving DecidableEq, Repr

namespace Tally

instance : Add Tally where
  add a b := ⟨a.lines + b.lines, a.words + b.words, a.chars + b.chars, a.bytes + b.bytes⟩

def total (ts : List Tally) : Tally := ts.foldl (· + ·) {}

/-- One row: four numbers aligned to the right, and the name if there is one. -/
def row (t : Tally) (name : Text) : Text :=
  let field (n : Int) : Text := Text.ofChars (Numeral.rightAligned 8 n)
  let numbers := Text.join " " [field t.lines, field t.words, field t.chars, field t.bytes]
  if name.isEmpty then numbers else numbers ++ " " ++ name

end Tally

/-- A counter that is fed with successive chunks of one input. -/
structure WordCounter where
  lines : Nat := 0
  words : Nat := 0
  bytes : Nat := 0
  /-- Was the last byte part of a word? -/
  inWord : Bool := false
  deriving DecidableEq, Repr

namespace WordCounter

def step (c : WordCounter) (b : UInt8) : WordCounter where
  lines := if b = newline then c.lines + 1 else c.lines
  words := if !isBlankByte b && !c.inWord then c.words + 1 else c.words
  bytes := c.bytes + 1
  inWord := !isBlankByte b

def feed (c : WordCounter) (chunk : Bytes) : WordCounter := chunk.foldl step c

def tally (c : WordCounter) : Tally := ⟨c.lines, c.words, c.bytes, c.bytes⟩

end WordCounter

namespace Tally

def ofChunks (chunks : List Bytes) : Tally := (chunks.foldl WordCounter.feed {}).tally

def ofBytes (data : Bytes) : Tally := ofChunks [data]

/-- Count a stream; a failed read is reported under the given name. -/
def ofStream (name : Text) (size : ReadSize) (s : Stream) : Except Fault Tally × Stream :=
  let reading := s.readAll size
  match reading.fault? with
  | some fault => (.error (fault.asUnreadable name), reading.after)
  | none => (.ok (ofChunks reading.pieces), reading.after)

/-- Cut bytes into slices of a positive size, the last one possibly shorter; the slices made so far
are kept in reverse. -/
def slicesFrom (size : Nat) (done : List Bytes) (data : Bytes) : List Bytes :=
  if h : data = [] ∨ size = 0 then done.reverse
  else
    have : (data.drop size).length < data.length := by
      have := List.length_pos_iff.mpr (not_or.mp h).1
      rw [List.length_drop]
      omega
    slicesFrom size (data.take size :: done) (data.drop size)
  termination_by data.length

def slices (size : Nat) (data : Bytes) : List Bytes := slicesFrom size [] data

end Tally

/-- The outcome of counting a file: the counts, and why the mapped file could not be used, if so. -/
structure FileCount where
  tally : Except Fault Tally
  unmapped : Option Text := none

/-- Count what was opened under a name with a buffer size. A file that is larger is mapped and
counted in slices; a negative size yields no slice at all. Where mapping fails, and for small files,
it is read. What is no file has no size of its own. -/
def countOpened (opened : Except Fault Stream) (name : Text) (buffer : Value) : FileCount :=
  match opened with
  | .error fault => ⟨.error (fault.asUnreadable name), none⟩
  | .ok s =>
    let data := if s.isFile then s.whole else []
    let byReading := (Tally.ofStream name (ReadSize.ofValue buffer) s).1
    match buffer.int? with
    | none => ⟨.error .wrongKind, none⟩
    | some size =>
      if (data.length : Int) ≤ size then ⟨byReading, none⟩
      else if data.isEmpty then ⟨byReading, some "cannot mmap an empty file"⟩
      else if size = 0 then ⟨byReading, some "range() arg 3 must not be zero"⟩
      else if size < 0 then ⟨.ok {}, none⟩
      else ⟨.ok (Tally.ofChunks (Tally.slices size.toNat data)), none⟩

def countFile (t : FileTree) (name : Text) (buffer : Value) : FileCount :=
  countOpened ((t.openRaw name).map .ofFile) name buffer

end Bytewise
