import Bytewise.Checksum.Algorithm
import Bytewise.FileTree.Supply

/-!
# Digests of files and streams

A digest is the checksum of one input together with the input's name and size. It is computed by
reading the input in chunks; if a read fails there is no digest, not even of what was read before.
-/

namespace Bytewise

/-- The chunk size in use where no setting gives one. -/
def defaultChunk : ReadSize := .atMost 8192

structure Digest where
  algorithm : Algorithm
  value : Nat
  size : Nat
  name : Text
  deriving Repr

namespace Digest

def hex (d : Digest) : List Char := Numeral.zeroPadded 16 8 d.value

/-- The line of a listing: the checksum, two spaces and the name. -/
def line (d : Digest) : Text := Text.ofChars d.hex ++ "  " ++ d.name

/-- The line that is printed; a quiet one leaves the name out. -/
def shownLine (d : Digest) (quiet : Bool) : Text := if quiet then Text.ofChars d.hex else d.line

/-- The digest of a stream, and the stream behind what was read. A failed read is reported under the
given name. -/
def ofStream (a : Algorithm) (name : Text) (size : ReadSize) (s : Stream) :
    Except Fault Digest × Stream :=
  let reading := s.readAll size
  match reading.fault? with
  | some fault => (.error (fault.asUnreadable name), reading.after)
  | none =>
    let sum := reading.pieces.foldl RunningSum.feed (RunningSum.start a)
    (.ok ⟨a, sum.value, sum.size, name⟩, reading.after)

/-- The digest of what was opened under a name. The algorithm is looked at only once it is open, so
a missing file is reported before an unknown algorithm. -/
def ofOpened (opened : Except Fault Stream) (algorithm : Except Fault Algorithm) (name : Text)
    (size : ReadSize) : Except Fault Digest := do
  let s ← opened.mapError (·.asUnreadable name)
  let a ← algorithm
  (ofStream a name size s).1

def ofFile (t : FileTree) (algorithm : Except Fault Algorithm) (name : Text) (size : ReadSize) :
    Except Fault Digest :=
  ofOpened ((t.openRaw name).map .ofFile) algorithm name size

end Digest

end Bytewise
