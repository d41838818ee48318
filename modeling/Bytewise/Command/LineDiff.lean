import Bytewise.Command.Program
import Bytewise.LineDiff

/-!
# The comparison program

`diff` compares two files. The exit status is zero if they are the same, one if they differ, and two
if there was trouble.
-/

namespace Bytewise.LineDiffProgram

open Run

def program : Text := "diff"

inductive Key where
  | ignoreCase
  | ignoreBlanks
  | brief
  deriving DecidableEq, Repr

def rules : List (OptionRule Key) :=
  [⟨.ignoreCase, ["--ignore-case", "-i"], .flag⟩,
   ⟨.ignoreBlanks, ["--ignore-all-space", "-w"], .flag⟩, ⟨.brief, ["--brief", "-q"], .flag⟩]

def trouble : Nat := 2

def refuseOperands (tooMany : Bool) : Run Unit := do
  complain program (if tooMany then "extra operand" else "missing operand")
  hint program
  exit trouble

def report (c : Comparison) (brief : Bool) : Run Unit :=
  if brief then print c.brief else emit c.text

def compare (t : FileTree) (o : DiffOptions) (brief : Bool) (old new : Text) : Run Unit := do
  match compareFiles t o old new with
  | .ok c =>
    record ⟨.lineDiff, c.logged⟩
    report c brief
    exit (if c.same then 0 else 1)
  | .error (.unreadable path reason) =>
    complainOf program path reason
    exit trouble
  | .error fault => throw (.raised fault)

def launch (around : Surroundings) (above : Option Settings) (args : List Text) : Run Unit := do
  let (a, _) ← start program rules around above args
  match a.operands with
  | [old, new] =>
    compare around.tree ⟨a.has (.own .ignoreCase), a.has (.own .ignoreBlanks)⟩
      (a.has (.own .brief)) old new
  | operands => refuseOperands (2 < operands.length)

end Bytewise.LineDiffProgram
