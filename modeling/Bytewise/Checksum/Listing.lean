import Bytewise.Checksum.Digest
import Bytewise.Text.Line

/-!
# Checksum listings

A listing has one line per file: one to eight hexadecimal digits, two spaces and the file's name. A
line may end in carriage returns and line feeds, which do not belong to the name. `CheckLine.parse`
reads one line and `verify` recomputes every checksum of a listing.

Verification goes on after a bad line and after a file that cannot be read; both are recorded.
-/

namespace Bytewise

/-- A line of a listing: the checksum that is claimed for a name. -/
structure CheckLine where
  expected : Nat
  name : Text
  deriving DecidableEq, Repr

namespace CheckLine

def isLineEnd (s : Symbol) : Bool := s == .char '\r' || s == .char '\n'

def isHexDigit : Symbol → Bool
  | .char c => Numeral.isDigit 16 c
  | .stray _ => false

def parse (line : Text) : Except Fault CheckLine :=
  let body := line.dropEndWhile isLineEnd
  let digits := body.takeWhile isHexDigit
  match body.drop digits.length with
  | .char ' ' :: .char ' ' :: name =>
    if 1 ≤ digits.length && digits.length ≤ 8 && !name.isEmpty && !name.contains (.char '\n') then
      .ok ⟨Numeral.value 16 (digits.filterMap Symbol.char?), name⟩
    else .error (.malformedLine line)
  | _ => .error (.malformedLine line)

end CheckLine

structure CheckEntry where
  name : Text
  expected : Nat
  /-- The checksum of the file, or the reason why it could not be read. -/
  found : Except Text Nat
  deriving Repr

namespace CheckEntry

/-- Does the file have the checksum that the listing claims? -/
def ok (e : CheckEntry) : Bool :=
  match e.found with
  | .ok actual => actual == e.expected
  | .error _ => false

def line (e : CheckEntry) : Text :=
  match e.found with
  | .error _ => e.name ++ ": FAILED open or read"
  | .ok _ => e.name ++ (if e.ok then ": OK" else ": FAILED")

end CheckEntry

/-- The outcome of verifying a listing: the entries in order, the lines not in the format with their
numbers, and the fault that ended the verification early, if one did. -/
structure Verification where
  entries : List CheckEntry := []
  malformed : List (Nat × Text) := []
  stopped : Option Fault := none
  deriving Repr

namespace Verification

/-- Verify one line of a listing. Blank lines say nothing. What is found is kept in reverse. -/
def checkLine (t : FileTree) (algorithm : Except Fault Algorithm) (size : ReadSize)
    (base : Option Path) (number : Nat) (line : Text) (v : Verification) : Verification :=
  if line.isBlank then v
  else match CheckLine.parse line with
    | .error fault => { v with malformed := (number, fault.message) :: v.malformed }
    | .ok ⟨expected, name⟩ =>
      let path := Path.ofText name
      let target := match base with
        | some dir => dir.append path
        | none => path
      match Digest.ofFile t algorithm target.toText size with
      | .ok digest => { v with entries := ⟨name, expected, .ok digest.value⟩ :: v.entries }
      | .error (.unreadable _ reason) =>
        { v with entries := ⟨name, expected, .error reason⟩ :: v.entries }
      | .error fault => { v with stopped := some fault }

/-- Verify lines, counting them from a number, until one stops the verification. -/
def checkLines (t : FileTree) (algorithm : Except Fault Algorithm) (size : ReadSize)
    (base : Option Path) : Nat → List Text → Verification → Verification
  | _, [], v => v
  | number, line :: rest, v =>
    let v := checkLine t algorithm size base number line v
    if v.stopped.isSome then v else checkLines t algorithm size base (number + 1) rest v

end Verification

/-- Recompute and compare every checksum of a listing. Relative names are taken below the base
directory, if there is one. -/
def verify (t : FileTree) (algorithm : Except Fault Algorithm) (size : ReadSize)
    (base : Option Path) (lines : List Text) : Verification :=
  let v := Verification.checkLines t algorithm size base 1 lines {}
  { v with entries := v.entries.reverse, malformed := v.malformed.reverse }

end Bytewise
