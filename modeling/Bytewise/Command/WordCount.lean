import Bytewise.Command.Program
import Bytewise.WordCount

/-!
# The count program

`countfile` prints a row for each file and, after more than one, a row for all of them. Without
operands it counts standard input.
-/

namespace Bytewise.WordCountProgram

open Run

def program : Text := "countfile"

def rules : List (OptionRule Empty) := []

def countInput (buffer : Value) : Run Unit := do
  match ← readInput (Tally.ofStream "stdin" (ReadSize.ofValue buffer)) with
  | .ok tally => echo (tally.row [])
  | .error (.unreadable name reason) =>
    complainOf program name reason
    exit 1
  | .error fault => throw (.raised fault)

/-- Print the row of an operand, or report why it has none. -/
def report (name : Text) : Except Fault Tally → Run (Option Tally)
  | .ok tally => do
    echo (tally.row name)
    return some tally
  | .error (.unreadable path reason) => do
    complainOf program path reason
    return none
  | .error fault => throw (.raised fault)

/-- Count one operand; its counts are returned if it could be read. -/
def countOperand (files : Supply) (buffer : Value) (name : Text) : Run (Option Tally) := do
  let count := countOpened (files.opened name) name buffer
  if let some cause := count.unmapped then
    record ⟨.wordCount, "mmap failed for " ++ name ++ ", falling back to reads: " ++ cause⟩
  report name count.tally

/-- Print the row for all operands, if there are several, and end. -/
def conclude (outcomes : List (Option Tally)) : Run Unit := do
  let counted := outcomes.filterMap id
  if 1 < counted.length then echo ((Tally.total counted).row "total")
  unless outcomes.all Option.isSome do exit 1

/-- The program, whose operands are opened in a supply. -/
def launchOn (files : Supply) (around : Surroundings) (above : Option Settings)
    (args : List Text) : Run Unit := do
  let (a, settings) ← start program rules around above args
  let buffer := settings.get .bufferSize
  if a.operands.isEmpty then countInput buffer
  else
    let outcomes ← a.operands.mapM (countOperand files buffer)
    conclude outcomes

def launch (around : Surroundings) : Option Settings → List Text → Run Unit :=
  launchOn around.tree.supply around

end Bytewise.WordCountProgram
