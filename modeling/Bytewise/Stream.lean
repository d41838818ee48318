import Bytewise.Fault

/-!
# Streams

A stream is a sequence of bytes with a position, read piece by piece. A read may hand over fewer
bytes than it was asked for, it may fail from some position on, and the stream may or may not be
able to jump to a position. These three are part of the value, so that "however the reads are split"
is a statement about all streams with the same bytes.

An empty piece means the end. Loops over reads therefore end: each piece that is not empty leaves
fewer bytes ahead (`Stream.ahead_of_read`).
-/

namespace Bytewise

/-- How a stream answers a request to jump to a position. -/
inductive Seeking where
  | works
  | unsupported
  /-- The stream claims that it can jump, and then fails. -/
  | failing
  /-- The stream cannot even say whether it can jump. -/
  | unanswered
  deriving DecidableEq, Repr

/-- How much one read asks for. A setting that is no whole number, or one that the system cannot
take, is kept as such and refused by the first read. -/
inductive ReadSize where
  | everything
  | atMost (count : Nat)
  /-- Less than minus one: bytes in memory take that for everything, and files refuse it. -/
  | negative
  | tooLarge
  | notNumber
  deriving DecidableEq, Repr

/-- Sizes and positions of the system lie below this bound. -/
def sizeBound : Nat := 0x8000000000000000

/-- A whole number as a read size: minus one asks for everything. -/
def ReadSize.ofInt (n : Int) : ReadSize :=
  if n < -(sizeBound : Int) || (sizeBound : Int) ≤ n then .tooLarge
  else if n < -1 then .negative
  else if n < 0 then .everything
  else .atMost n.toNat

def standardInput : Text := "(standard input)"

structure Stream where
  /-- All bytes of the stream. -/
  whole : Bytes
  /-- How many bytes lie behind. -/
  position : Nat := 0
  /-- The bytes from the position on. -/
  ahead : Bytes := whole.drop position
  /-- The most bytes that one read at a position hands over, if there is a limit. -/
  allowance : Nat → Option Nat := fun _ => none
  /-- The position from which every read fails, and how. -/
  failure : Option (Nat × SystemFault) := none
  seeking : Seeking := .works
  /-- Does the stream refuse sizes and positions that the system cannot take? -/
  bounded : Bool := true
  /-- Is the stream an open file? A file refuses such a position in words of its own, and negative
  sizes. -/
  isFile : Bool := false
  ahead_eq : ahead = whole.drop position := by rfl

namespace Stream

/-- Bytes held in memory. -/
def ofBytes (data : Bytes) : Stream where
  whole := data
  ahead := data
  ahead_eq := by simp

/-- A file opened for reading. -/
def ofFile (data : Bytes) : Stream := { ofBytes data with isFile := true }

def advance (s : Stream) (count : Nat) : Stream :=
  { s with
    position := s.position + count
    ahead := s.ahead.drop count
    ahead_eq := by rw [s.ahead_eq, List.drop_drop] }

/-- The stream at a position, which may lie past its end. -/
def jump (s : Stream) (position : Nat) : Stream :=
  { s with
    position := position
    ahead := s.whole.drop position
    ahead_eq := rfl }

def grant (s : Stream) (size : ReadSize) : Nat :=
  let asked := match size with
    | .atMost count => min count s.ahead.length
    | _ => s.ahead.length
  let allowed := match s.allowance s.position with
    | some most => min most asked
    | none => asked
  match s.failure with
  | some (limit, _) => min (limit - s.position) allowed
  | none => allowed

/-- Why a size is refused before anything is read. -/
def refusal? (s : Stream) : ReadSize → Option Fault
  | .notNumber => some .wrongKind
  | .tooLarge => if s.bounded then some .tooLarge else none
  | .negative => if s.isFile then some .negativeSize else none
  | .everything => none
  | .atMost _ => none

/-- One read: the piece handed over and the stream behind it. -/
def read (s : Stream) (size : ReadSize) : Except Fault (Bytes × Stream) :=
  match s.refusal? size, s.failure with
  | some fault, _ => .error fault
  | none, some (limit, cause) =>
    if limit ≤ s.position then .error (.system cause)
    else .ok (s.ahead.take (s.grant size), s.advance (s.grant size))
  | none, none => .ok (s.ahead.take (s.grant size), s.advance (s.grant size))

theorem ahead_of_read {s s' : Stream} {size : ReadSize} {piece : Bytes}
    (h : s.read size = .ok (piece, s')) : s.ahead = piece ++ s'.ahead := by
  unfold read at h
  split at h
  · simp at h
  · split at h
    · simp at h
    · obtain ⟨rfl, rfl⟩ : _ ∧ _ := by simpa using h
      simp [advance]
  · obtain ⟨rfl, rfl⟩ : _ ∧ _ := by simpa using h
    simp [advance]

/-- A piece that is not empty leaves fewer bytes ahead. -/
theorem length_ahead_lt {s s' : Stream} {size : ReadSize} {piece : Bytes}
    (h : s.read size = .ok (piece, s')) (hp : piece ≠ []) :
    s'.ahead.length < s.ahead.length := by
  rw [ahead_of_read h, List.length_append]
  have := List.length_pos_iff.mpr hp
  omega

/-- What came of reading a stream to its end or to a failure. -/
structure Reading where
  pieces : List Bytes
  /-- Why reading stopped early, if it did. -/
  fault? : Option Fault
  after : Stream

/-- Read pieces of one size until the end; those read so far are kept in reverse. -/
def readFrom (size : ReadSize) (done : List Bytes) (s : Stream) : Reading :=
  match h : s.read size with
  | .error fault => ⟨done.reverse, some fault, s⟩
  | .ok (piece, s') =>
    if hp : piece = [] then ⟨done.reverse, none, s'⟩
    else
      have := length_ahead_lt h hp
      readFrom size (piece :: done) s'
  termination_by s.ahead.length

def readAll (s : Stream) (size : ReadSize) : Reading := readFrom size [] s

/-- The largest piece that is read at a time where no setting says otherwise. -/
def pieceSize : Nat := 4096

/-- Read and drop up to `left` more bytes; `done` were dropped before. -/
def dropFrom (left done : Nat) (s : Stream) : Except Fault (Nat × Stream) :=
  if left = 0 then .ok (done, s)
  else match h : s.read (.atMost (min pieceSize left)) with
    | .error fault => .error fault
    | .ok (piece, s') =>
      if hp : piece = [] then .ok (done, s')
      else
        have := length_ahead_lt h hp
        dropFrom (left - piece.length) (done + piece.length) s'
  termination_by s.ahead.length

/-- Must a skip fall back on reading because a jump that was promised fails? -/
def jumpFails (s : Stream) (count : Int) : Bool := 0 < count && s.seeking = .failing

/-- How a stream refuses a position that the system cannot take. -/
def outOfReach (s : Stream) : Fault := if s.isFile then .positionTooLarge else .tooLarge

/-- Pass over the first bytes of a stream: by a jump if the stream can, otherwise by reading. The
number returned is that of the bytes passed; a jump counts bytes past the end as well. -/
def skip (s : Stream) (count : Int) : Except Fault (Nat × Stream) :=
  if count ≤ 0 then .ok (0, s)
  else
    let count := count.toNat
    match s.seeking with
    | .works =>
      if s.bounded && sizeBound ≤ count then .error s.outOfReach else .ok (count, s.jump count)
    | _ => dropFrom count 0 s

end Stream

end Bytewise
