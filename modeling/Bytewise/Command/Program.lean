import Bytewise.Command.Session
import Bytewise.Package.Basic
import Bytewise.Settings.File

/-!
# Programs

Every program has the options `--config`, `--verbose`, `--version` and `--help` besides its own.
Running one goes through the same stages: the command line is read; version and help are answered
before anything else; the values of options are checked in the order the options were first given;
the settings are loaded and the log is set up; then the program does its work.

A program that runs below another one uses the settings of that one, unless it was given its own.
-/

namespace Bytewise

/-- What a program can see besides its command line and standard input. -/
structure Surroundings where
  packages : Packages
  tree : FileTree
  env : Environment

def Surroundings.load (around : Surroundings) (given : Option Text) : Except Fault Settings :=
  Settings.load around.packages.yaml around.tree around.env given true

/-- The session in which a program starts. -/
def Surroundings.session (around : Surroundings) (stdin : Stream) : Session where
  terminal := around.packages.terminal
  stdin := stdin

/-- The options of a program: those that all programs have, and its own. -/
inductive OptionKey (α : Type) where
  | config
  | verbose
  | version
  | help
  | own (key : α)
  deriving DecidableEq, Repr

def commonRules (α : Type) : List (OptionRule (OptionKey α)) :=
  [⟨.config, ["--config"], .path⟩, ⟨.verbose, ["--verbose"], .flag⟩,
   ⟨.version, ["--version"], .flag⟩, ⟨.help, ["-h", "--help"], .flag⟩]

def allRules {α : Type} (own : List (OptionRule α)) : List (OptionRule (OptionKey α)) :=
  own.map (fun r => ⟨.own r.key, r.names, r.form⟩) ++ commonRules α

def versionBanner (program : Text) : Text :=
  program ++ " (dev-utils) 1.0.0\n" ++
  "Copyright (C) 2025 AnmiTaliDev\n" ++
  "License GPLv3+: GNU GPL version 3 or later <https://gnu.org/licenses/gpl.html>.\n" ++
  "This is free software: you are free to change and redistribute it.\n" ++
  "There is NO WARRANTY, to the extent permitted by law."

/-- A word in the form in which choices are compared. -/
def foldCase (t : Text) : Text :=
  t.map fun
    | .char 'ſ' => .char 's'
    | .char c => .char c.toLower
    | s => s

namespace ValueForm

/-- Check the value of an option. A path need not exist, but if it does it must be readable. -/
def check (form : ValueForm) (t : FileTree) (value : Text) : Except Halt Unit :=
  match form with
  | .flag => .ok ()
  | .text => .ok ()
  | .path =>
    match t.find value with
    | .ok (.file access _) => if access.read then .ok () else .error (.refused .badParameter)
    | .ok (.directory access _) => if access.read then .ok () else .error (.refused .badParameter)
    | .ok (.link _) => .ok ()
    | .error .nulInName => .error (.raised .nulInName)
    | .error _ => .ok ()
  | .choice words =>
    if words.contains (foldCase value) then .ok () else .error (.refused .badParameter)

end ValueForm

namespace Run

variable {α : Type} [DecidableEq α]

def refuse {β : Type} (around : Surroundings) (command : Invocation) (fault : UsageFault) :
    Run β := do
  emitError (around.packages.commandLine.complaint command fault)
  throw (.refused fault)

def readArguments (around : Surroundings) (command : Invocation) (own : List (OptionRule α))
    (mixed : Bool) : Run (Arguments (OptionKey α)) :=
  match around.packages.commandLine.read (allRules own) mixed command.args with
  | .ok a => pure a
  | .error fault => refuse around command fault

/-- Answer the options that ask about the program itself; the first one given decides. -/
def answerQuestions (program : Text) (a : Arguments (OptionKey α)) : Run Unit :=
  let questions := a.inOrder.filter fun k => k = .version ∨ k = .help
  match questions.head? with
  | some .version => do
    echo (versionBanner program)
    exit 0
  | some _ => do
    echo ("Usage: " ++ program ++ " [OPTIONS] [ARGS]...")
    exit 0
  | none => pure ()

def checkValues (around : Surroundings) (command : Invocation) (own : List (OptionRule α))
    (a : Arguments (OptionKey α)) : Run Unit :=
  a.inOrder.forM fun key =>
    match (allRules own).find? (fun r => decide (r.key = key)), a.value? key with
    | some rule, some value =>
      match rule.form.check around.tree value with
      | .ok () => pure ()
      | .error (.refused fault) => refuse around command fault
      | .error halt => throw halt
    | _, _ => pure ()

def openLog (settings : Settings) (verbose : Bool) : Run Unit := do
  let log ← orRaise (LogSettings.ofSettings settings verbose)
  modify fun s => { s with log := log }

/-- The faults of loading settings that a program reports; any other ends it. -/
def isSettingsFault : Fault → Bool
  | .settingsMissing _ => true
  | .settingsMalformed _ => true
  | .settingsNotMapping _ => true
  | .settingsSuffix _ => true
  | .unknownKeys _ _ => true
  | .badVariable _ _ => true
  | _ => false

/-- Load settings and set the log up. Settings that cannot be loaded are reported. -/
def loadSettings (program : Text) (around : Surroundings) (a : Arguments (OptionKey α)) :
    Run Settings := do
  let file := (a.value? .config).map fun name => (Path.ofText name).toText
  match around.load file with
  | .ok settings =>
    openLog settings (a.has .verbose)
    return settings
  | .error fault =>
    if isSettingsFault fault then
      complain program fault.message
      exit 2
    else throw (.raised fault)

/-- The settings of a program: those of the program above it, unless it was given its own. -/
def resolveSettings (program : Text) (around : Surroundings) (above : Option Settings)
    (a : Arguments (OptionKey α)) : Run Settings :=
  match above, a.has .config with
  | some settings, false => do
    if a.has .verbose then openLog settings true
    return settings
  | _, _ => loadSettings program around a

/-- The stages of a program up to its work: the command line that was read and the settings. -/
def start (program : Text) (own : List (OptionRule α)) (around : Surroundings)
    (above : Option Settings) (args : List Text) :
    Run (Arguments (OptionKey α) × Settings) := do
  let command : Invocation := ⟨program, above.isSome, args⟩
  let a ← readArguments around command own true
  answerQuestions program a
  checkValues around command own a
  let settings ← resolveSettings program around above a
  return (a, settings)

def hint (program : Text) : Run Unit :=
  printError ("Try '" ++ program ++ " --help' for more information.\n")

end Run

end Bytewise
