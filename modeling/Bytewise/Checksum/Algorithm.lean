import Bytewise.Fault

/-!
# Checksum algorithms

Three checksums are known: CRC-32, Adler-32 and the rotating 16-bit sum. Each is a small machine
that takes one byte at a time: a register, a step and a reading of the register as a number. A
running sum over chunks is then a left fold, and cutting the input differently cannot change its
result.

The register of an algorithm has its own type, so that a register of one is never fed by the step of
another.
-/

namespace Bytewise

inductive Algorithm where
  | crc32
  | adler32
  | bsd
  deriving DecidableEq, Repr

namespace Algorithm

/-- The name under which an algorithm is asked for. -/
def name : Algorithm → Text
  | .crc32 => "crc32"
  | .adler32 => "adler32"
  | .bsd => "bsd"

def label : Algorithm → Text
  | .crc32 => "CRC32"
  | .adler32 => "ADLER32"
  | .bsd => "BSD"

/-- The algorithm with a given name; names are case-sensitive. -/
def named (t : Text) : Except Fault Algorithm :=
  match [crc32, adler32, bsd].find? (·.name = t) with
  | some a => .ok a
  | none => .error (.unknownAlgorithm t)

/-- The largest prime below `2 ^ 16`. -/
def adlerModulus : Nat := 65521

/-- What a running sum remembers: the CRC's remainder, the two sums of Adler-32, or the rotating
sum. -/
def Register : Algorithm → Type
  | .crc32 => UInt32
  | .adler32 => Nat × Nat
  | .bsd => UInt16

/-- One division step of the CRC: shift out the lowest bit, and subtract the polynomial if it was
set. -/
def crcShift (r : UInt32) : UInt32 :=
  if r &&& 1 = 1 then (r >>> 1) ^^^ 0xEDB88320 else r >>> 1

/-- The CRC's remainder after one more byte, lowest bit first. -/
def crcByte (r : UInt32) (b : UInt8) : UInt32 :=
  let r := r ^^^ b.toUInt32
  crcShift (crcShift (crcShift (crcShift (crcShift (crcShift (crcShift (crcShift r)))))))

def adlerByte (sums : Nat × Nat) (b : UInt8) : Nat × Nat :=
  let low := (sums.1 + b.toNat) % adlerModulus
  (low, (sums.2 + low) % adlerModulus)

/-- The rotating sum after one more byte: rotate right by one bit, then add. -/
def bsdByte (sum : UInt16) (b : UInt8) : UInt16 :=
  (sum >>> 1) + ((sum &&& 1) <<< 15) + b.toUInt16

def start : (a : Algorithm) → a.Register
  | .crc32 => (0xFFFFFFFF : UInt32)
  | .adler32 => ((1, 0) : Nat × Nat)
  | .bsd => (0 : UInt16)

def step : (a : Algorithm) → a.Register → UInt8 → a.Register
  | .crc32 => crcByte
  | .adler32 => adlerByte
  | .bsd => bsdByte

def value : (a : Algorithm) → a.Register → Nat
  | .crc32, r => let r : UInt32 := r; (r ^^^ 0xFFFFFFFF).toNat
  | .adler32, (low, high) => high * 0x10000 + low
  | .bsd, r => UInt16.toNat r

end Algorithm

/-- A running checksum: the register, and the number of bytes taken in. -/
structure RunningSum (a : Algorithm) where
  register : a.Register
  size : Nat

namespace RunningSum

def start (a : Algorithm) : RunningSum a := ⟨a.start, 0⟩

def feed {a : Algorithm} (s : RunningSum a) (chunk : Bytes) : RunningSum a :=
  ⟨chunk.foldl a.step s.register, s.size + chunk.length⟩

/-- The checksum of everything taken in. -/
def value {a : Algorithm} (s : RunningSum a) : Nat := a.value s.register

end RunningSum

def Algorithm.checksum (a : Algorithm) (data : Bytes) : Nat :=
  ((RunningSum.start a).feed data).value

end Bytewise
