import Bytewise.Command.Program
import Bytewise.Dump.Offset
import Bytewise.Dump.Row
import Bytewise.FileTree.Supply

/-!
# The dump program

`hexdump` prints the bytes of each file, or of standard input, in the layout of the last layout
flag. Lines that were made before an input failed are printed before the failure is reported.
-/

namespace Bytewise.DumpProgram

open Run

def program : Text := "hexdump"

inductive Key where
  | layout (l : Layout)
  | skip
  | length
  /-- Are repeated lines shown? -/
  | everyLine
  deriving DecidableEq, Repr

def rules : List (OptionRule Key) :=
  [⟨.layout .canonical, ["-C"], .flag⟩, ⟨.layout .oneByteHex, ["-x"], .flag⟩,
   ⟨.layout .twoByteDecimal, ["-d"], .flag⟩, ⟨.layout .twoByteOctal, ["-o"], .flag⟩,
   ⟨.skip, ["-s"], .text⟩, ⟨.length, ["-n"], .text⟩, ⟨.everyLine, ["-v"], .flag⟩]

def layoutOf : OptionKey Key → Option Layout
  | .own (.layout l) => some l
  | _ => none

def readOffset (t : Text) : Run Int :=
  orRaise (Offset.parse (t.map fun s => s.char?.getD '\ufffd'))

/-- Report an option that makes no sense and end. -/
def reject {α : Type} (fault : Fault) : Run α := do
  complain program fault.message
  exit 1

/-- The options of a dump in a layout and within bounds, from the rest of the command line and the
settings. -/
def makeOptions (layout : Layout) (a : Arguments (OptionKey Key)) (settings : Settings)
    (skip : Int) (length : Option Int) : Run DumpOptions := do
  if length.any (· ≤ 0) then reject .invalidLength
  let squeeze := (settings.get .suppressDuplicates).truthy && !a.has (.own .everyLine)
  match DumpOptions.make layout (.int skip) ((length.map Value.int).getD .null) squeeze
      (settings.get .bytesPerLine) with
  | .ok o => return o
  | .error (.invalidWidth shown) => reject (.invalidWidth shown)
  | .error fault => throw (.raised fault)

/-- The options of a dump in a layout, from the rest of the command line and the settings. -/
def dumpOptionsIn (layout : Layout) (a : Arguments (OptionKey Key)) (settings : Settings) :
    Run DumpOptions := do
  let skip ← match a.value? (.own .skip) with
    | some t => readOffset t
    | none => pure 0
  if skip < 0 then reject .invalidSkip
  let length ← match a.value? (.own .length) with
    | some t => some <$> readOffset t
    | none => pure none
  makeOptions layout a settings skip length

def dumpOptions (a : Arguments (OptionKey Key)) (settings : Settings) : Run DumpOptions :=
  dumpOptionsIn ((a.lastOf layoutOf).getD .canonical) a settings

/-- Print the dump of an input; could it be read to its end? -/
def dumpInput (name : Text) (d : Dump) (jumpFails : Bool) : Run Bool := do
  if jumpFails then
    record ⟨.dump, "seek failed, skipping by reading: " ++ SystemFault.logged .illegalSeek none⟩
  d.lines.forM fun line => echo (Text.ofChars line)
  match d.fault? with
  | none => return true
  | some (.system cause) =>
    complainOf program name cause.reason
    return false
  | some fault => throw (.raised fault)

/-- Print the dump of one operand; could it be read to its end? -/
def dumpOperand (files : Supply) (o : DumpOptions) (name : Text) : Run Bool := do
  match files.opened name with
  | .ok s =>
    record ⟨.dumpCommand, "Dumping " ++ name ++ " (" ++ o.layout.name ++ ")"⟩
    dumpInput name (Dump.ofStream o s) (s.jumpFails o.skip)
  | .error (.system cause) =>
    complainOf program name cause.reason
    return false
  | .error fault => throw (.raised fault)

def work (files : Supply) (a : Arguments (OptionKey Key)) (o : DumpOptions) : Run Unit := do
  let complete ←
    if a.operands.isEmpty then do
      let (dump, jumpFails) ← readInput fun s =>
        let dump := Dump.ofStream o s
        ((dump, s.jumpFails o.skip), dump.after)
      pure [← dumpInput standardInput dump jumpFails]
    else a.operands.mapM (dumpOperand files o)
  unless complete.all id do exit 1

/-- The program, whose operands are opened in a supply. -/
def launchOn (files : Supply) (around : Surroundings) (above : Option Settings)
    (args : List Text) : Run Unit := do
  let (a, settings) ← start program rules around above args
  let o ← dumpOptions a settings
  work files a o

def launch (around : Surroundings) : Option Settings → List Text → Run Unit :=
  launchOn around.tree.supply around

end Bytewise.DumpProgram
