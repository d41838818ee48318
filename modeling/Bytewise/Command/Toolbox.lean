import Bytewise.Command.Checksum
import Bytewise.Command.Dump
import Bytewise.Command.LineDiff
import Bytewise.Command.Survey
import Bytewise.Command.WordCount

/-!
# The toolbox

There are five tools, each a program of its own, and a sixth program under which all of them can be
reached. That one loads its settings and sets the log up before the command line of the tool is
read.

`Program.run` is the whole of a run as a function: from the command line, the files, the environment
and standard input to what was written and how the program ended.
-/

namespace Bytewise

inductive Tool where
  | checksum
  | wordCount
  | lineDiff
  | dump
  | survey
  deriving DecidableEq, Repr

namespace Tool

/-- The name of a tool below the umbrella program. -/
def name : Tool → Text
  | .checksum => ChecksumProgram.program
  | .wordCount => WordCountProgram.program
  | .lineDiff => LineDiffProgram.program
  | .dump => DumpProgram.program
  | .survey => SurveyProgram.program

/-- The name of a tool as a program of its own; two names are longer, because others had them first.
-/
def standaloneName : Tool → Text
  | .lineDiff => "dev-diff"
  | .dump => "dev-hexdump"
  | tool => tool.name

def all : List Tool := [.checksum, .wordCount, .lineDiff, .dump, .survey]

/-- The tool with a given name below the umbrella program. -/
def named? (name : Text) : Option Tool := all.find? (·.name = name)

def launch : Tool → Surroundings → Option Settings → List Text → Run Unit
  | .checksum => ChecksumProgram.launch
  | .wordCount => WordCountProgram.launch
  | .lineDiff => LineDiffProgram.launch
  | .dump => DumpProgram.launch
  | .survey => SurveyProgram.launch

end Tool

namespace Umbrella

open Run

def program : Text := "dev-utils"

/-- The umbrella program has no options of its own. -/
def rules : List (OptionRule Empty) := []

/-- The umbrella program with arguments of its own. -/
def command (args : List Text) : Invocation := ⟨program, false, args⟩

/-- Read the umbrella program's part of a command line, which ends at the first operand. -/
def readOwn (around : Surroundings) (args : List Text) : Run (Arguments (OptionKey Empty)) := do
  let a ← readArguments around (command args) rules false
  answerQuestions program a
  checkValues around (command args) rules a
  return a

/-- Refuse a name that is no tool's. If it looks like an option it is read as one first. -/
def refuseName (around : Surroundings) (args : List Text) : Run Unit := do
  let _ ← readOwn around args
  refuse around (command args) .badCommand

def launch (around : Surroundings) (args : List Text) : Run Unit := do
  if args.isEmpty then
    echo ("Usage: " ++ program ++ " [OPTIONS] COMMAND [ARGS]...")
    exit 2
  let a ← readOwn around args
  match a.operands with
  | [] => refuse around (command args) .badCommand
  | name :: rest =>
    match Tool.named? name with
    | none => refuseName around (name :: rest)
    | some tool =>
      let settings ← loadSettings program around a
      tool.launch around (some settings) rest

end Umbrella

inductive Program where
  | tool (t : Tool)
  | umbrella
  deriving DecidableEq, Repr

/-- What was written in a run, and how the program ended. -/
structure Outcome where
  out : Bytes
  err : Bytes
  ending : Halt

def Outcome.status (o : Outcome) : Nat :=
  match o.ending with
  | .exit status => status
  | .refused _ => 2
  | .raised _ => 1

namespace Program

def named? (name : Text) : Option Program :=
  if name = Umbrella.program then some .umbrella
  else (Tool.all.find? (·.standaloneName = name)).map .tool

def launch (p : Program) (around : Surroundings) (args : List Text) : Run Unit :=
  match p with
  | .tool t => t.launch around none args
  | .umbrella => Umbrella.launch around args

def run (p : Program) (around : Surroundings) (stdin : Stream) (args : List Text) : Outcome :=
  match (p.launch around args).run.run (around.session stdin) with
  | (.ok (), s) => ⟨s.out.bytes, s.err.bytes, .exit 0⟩
  | (.error halt, s) => ⟨s.out.bytes, s.err.bytes, halt⟩

end Program

end Bytewise
