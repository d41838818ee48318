import Bytewise.Command.Program
import Bytewise.Survey.Report
import Bytewise.Survey.Surveyor

/-!
# The survey program

`cloc` counts the lines of files and directories by language and prints a report. Paths that could
not be processed are reported before it.
-/

namespace Bytewise.SurveyProgram

open Run

def program : Text := "cloc"

inductive Key where
  | format
  | exclude
  deriving DecidableEq, Repr

def forms : List (Text × ReportForm) := [("text", .text), ("table", .table), ("json", .json)]

def rules : List (OptionRule Key) :=
  [⟨.format, ["--format", "-f"], .choice (forms.map Prod.fst)⟩,
   ⟨.exclude, ["--exclude", "-e"], .text⟩]

def chooseForm (a : Arguments (OptionKey Key)) : ReportForm :=
  match a.value? (.own .format) with
  | some name => (forms.lookup (foldCase name)).getD .text
  | none => .text

/-- Set a surveyor up; patterns of the command line come after those of the settings. -/
def surveyor (package : PatternPackage) (a : Arguments (OptionKey Key)) (settings : Settings) :
    Except Fault Surveyor :=
  match (settings.get .ignorePatterns).items? with
  | none => .error .wrongKind
  | some patterns =>
    Surveyor.make package .standard
      (.list (patterns ++ (a.values (.own .exclude)).map Value.text))
      (settings.get .skipHidden) (settings.get .headerSniffBytes) (settings.get .useMmap)

def printReport (form : ReportForm) (survey : Survey) : Run Unit :=
  let totals := survey.aggregate
  match form with
  | .json => echo (Text.ofChars (Report.json totals survey.failures))
  | .table => do write ((← get).terminal.draw (Report.table totals))
  | .text => print (Report.text totals)

def launch (around : Surroundings) (above : Option Settings) (args : List Text) : Run Unit := do
  let (a, settings) ← start program rules around above args
  if a.operands.isEmpty then
    complain program "missing operand"
    hint program
    exit 1
  let surveyor ← orRaise (surveyor around.packages.patterns a settings)
  let (survey, _) := (surveyor.run around.tree a.operands).run []
  survey.records.forM record
  if let some fault := survey.stopped then throw (.raised fault)
  survey.failures.forM fun (path, reason) => complainOf program path reason
  printReport (chooseForm a) survey
  unless survey.ok do exit 1

end Bytewise.SurveyProgram
