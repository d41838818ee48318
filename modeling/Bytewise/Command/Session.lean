import Bytewise.Log.Format
import Bytewise.Package.CommandLine
import Bytewise.Package.Terminal
import Bytewise.Stream
import Bytewise.Text.Style

/-!
# Sessions

A program writes to two channels, reads standard input, and ends: by coming to its end, by choosing
an exit status, by refusing its command line, or by a fault that it does not handle. All of that is
a value. A `Run` is a part of a program; what was written before an early end stays written.
-/

namespace Bytewise

/-- What was written to a channel, in pieces, the last one first. -/
structure Channel where
  pieces : List Bytes := []

namespace Channel

def write (c : Channel) (piece : Bytes) : Channel := ⟨piece :: c.pieces⟩

/-- Everything that was written. -/
def bytes (c : Channel) : Bytes := c.pieces.reverse.flatten

end Channel

structure Session where
  terminal : TerminalPackage
  stdin : Stream
  log : LogSettings := {}
  out : Channel := {}
  err : Channel := {}

inductive Halt where
  | exit (status : Nat)
  | refused (fault : UsageFault)
  /-- A fault that the program does not handle. -/
  | raised (fault : Fault)
  deriving DecidableEq, Repr

/-- A part of a program, which may end it early. -/
abbrev Run := ExceptT Halt (StateM Session)

namespace Run

def exit {α : Type} (status : Nat) : Run α := throw (.exit status)

/-- Go on with a value, or end by the fault. -/
def orRaise {α : Type} : Except Fault α → Run α
  | .ok a => pure a
  | .error fault => throw (.raised fault)

def emit (data : Bytes) : Run Unit := modify fun s => { s with out := s.out.write data }

/-- Write text to standard output as it is; a text with stray bytes cannot be written. -/
def write (t : Text) : Run Unit :=
  match t.encode? with
  | some data => emit data
  | none => throw (.raised .unencodable)

def print (t : Text) : Run Unit := write t.unstyled

def echo (t : Text) : Run Unit := print (t ++ "\n")

def emitError (data : Bytes) : Run Unit := modify fun s => { s with err := s.err.write data }

def printError (t : Text) : Run Unit := emitError t.encodeShown

def complain (program message : Text) : Run Unit := do
  printError ((← get).terminal.errorLine program message)

/-- Report why something named could not be processed. -/
def complainOf (program name reason : Text) : Run Unit :=
  complain program (name ++ ": " ++ reason)

def record (r : LogRecord) : Run Unit := do
  match (← get).log.line? r with
  | some line => printError line
  | none => pure ()

/-- Let something read standard input; what it leaves unread is there for the next reader. -/
def readInput {α : Type} (f : Stream → α × Stream) : Run α := do
  let s ← get
  let (a, rest) := f s.stdin
  set { s with stdin := rest }
  return a

end Run

end Bytewise
