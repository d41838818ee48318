import Bytewise.FileTree.Basic
import Bytewise.Text.Line

/-!
# Comparing files line by line

Line `n` of the first file is compared with line `n` of the second; lines are not realigned, so an
inserted line shows up as a run of changes. Lines are bytes and keep their line feeds. Two lines are
compared in a normal form, which may drop blanks and fold case, but a hunk always shows them as they
are.
-/

namespace Bytewise

structure DiffOptions where
  ignoreCase : Bool := false
  ignoreBlanks : Bool := false
  deriving DecidableEq, Repr

namespace DiffOptions

/-- Spaces and tabs, the blanks that may be ignored inside a line. -/
def isInnerBlank (b : UInt8) : Bool := b == 0x20 || b == 0x09

/-- The lower-case form of an ASCII letter. -/
def foldByte (b : UInt8) : UInt8 := if 0x41 ≤ b && b ≤ 0x5A then b + 0x20 else b

def normalize (o : DiffOptions) (line : Bytes) : Bytes :=
  let line := if o.ignoreBlanks then line.filter (!isInnerBlank ·) else line
  if o.ignoreCase then line.map foldByte else line

end DiffOptions

inductive Change where
  | added (new : Bytes)
  | deleted (old : Bytes)
  | changed (old new : Bytes)
  deriving DecidableEq, Repr

namespace Change

/-- The change from one side to the other; at least one side has the line. -/
def of? : Option Bytes → Option Bytes → Option Change
  | none, none => none
  | none, some new => some (.added new)
  | some old, none => some (.deleted old)
  | some old, some new => some (.changed old new)

def kind : Change → Char
  | .added _ => 'a'
  | .deleted _ => 'd'
  | .changed _ _ => 'c'

def old? : Change → Option Bytes
  | .added _ => none
  | .deleted old => some old
  | .changed old _ => some old

def new? : Change → Option Bytes
  | .added new => some new
  | .deleted _ => none
  | .changed _ new => some new

end Change

/-- A change at a line, counted from one. -/
structure Hunk where
  number : Int
  change : Change
  deriving DecidableEq, Repr

namespace Hunk

/-- The line that announces a hunk: the numbers in the two files around the kind of change. -/
def header (first : Int) (kind : Char) (second : Int) : Bytes :=
  (Text.ofChars (Numeral.decimal first ++ kind :: Numeral.decimal second ++ ['\n'])).encode

/-- A hunk as text. A line is shown with the line feed it has, and without one if it has none. -/
def text (h : Hunk) : Bytes :=
  let less : Bytes := [0x3C, 0x20]
  let greater : Bytes := [0x3E, 0x20]
  let dashes : Bytes := [0x2D, 0x2D, 0x2D, newline]
  match h.change with
  | .added new => header (h.number - 1) 'a' h.number ++ greater ++ new
  | .deleted old => header h.number 'd' (h.number - 1) ++ less ++ old
  | .changed old new =>
    header h.number 'c' h.number ++ less ++ old ++ dashes ++ greater ++ new

end Hunk

/-- The hunks of two lists of lines, with the number of the first line and those found so far in
reverse. -/
def diffFrom (o : DiffOptions) (number : Nat) (done : List Hunk) :
    List Bytes → List Bytes → List Hunk
  | [], [] => done.reverse
  | [], new :: news => diffFrom o (number + 1) (⟨number, .added new⟩ :: done) [] news
  | old :: olds, [] => diffFrom o (number + 1) (⟨number, .deleted old⟩ :: done) olds []
  | old :: olds, new :: news =>
    if o.normalize old = o.normalize new then diffFrom o (number + 1) done olds news
    else diffFrom o (number + 1) (⟨number, .changed old new⟩ :: done) olds news

/-- A hunk for every position at which the two lists of lines differ. -/
def diffLines (o : DiffOptions) (old new : List Bytes) : List Hunk := diffFrom o 1 [] old new

structure Comparison where
  hunks : List Hunk
  oldName : Text
  newName : Text

namespace Comparison

def same (c : Comparison) : Bool := c.hunks.isEmpty

def text (c : Comparison) : Bytes := c.hunks.flatMap Hunk.text

/-- Only the fact that the files differ. -/
def brief (c : Comparison) : Text :=
  if c.same then [] else "Files " ++ c.oldName ++ " and " ++ c.newName ++ " differ\n"

def logged (c : Comparison) : Text :=
  c.oldName ++ " vs " ++ c.newName ++ ": " ++
    Text.ofChars (Numeral.digits 10 c.hunks.length) ++ " differing lines"

end Comparison

/-- Compare two files; the first one that cannot be read is reported. -/
def compareFiles (t : FileTree) (o : DiffOptions) (oldName newName : Text) :
    Except Fault Comparison := do
  let old ← t.openFile oldName
  let new ← t.openFile newName
  return ⟨diffLines o (cutLines old) (cutLines new), oldName, newName⟩

end Bytewise
