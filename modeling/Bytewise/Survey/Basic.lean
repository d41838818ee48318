import Bytewise.Log.Record
import Bytewise.Survey.Totals

/-!
# Surveys

A survey of source files is a list of events in the order they happened: a file was counted, a path
could not be processed, or there was something to note in the log. A survey goes on after a path
that could not be processed; only a fault of the set-up itself, such as a marker that cannot be
compared with bytes, stops it.

What a survey comes to is a state that every event changes: the totals by language, the files and
the failures so far (`SurveyResult`).

Surveys are made by `Work`, which keeps the classifiers it makes for whatever work comes after it.
-/

namespace Bytewise

inductive SurveyEvent where
  /-- A file was counted; the language is the one detected for it. -/
  | counted (counts : FileCounts) (language : Language)
  | failed (path reason : Text)
  | noted (record : LogRecord)

namespace SurveyEvent

def counted? : SurveyEvent → Option (FileCounts × Language)
  | .counted counts language => some (counts, language)
  | _ => none

def failed? : SurveyEvent → Option (Text × Text)
  | .failed path reason => some (path, reason)
  | _ => none

def noted? : SurveyEvent → Option LogRecord
  | .noted record => some record
  | _ => none

end SurveyEvent

/-- Events in order, and the fault that stopped the survey, if one did. -/
structure Survey where
  events : List SurveyEvent := []
  stopped : Option Fault := none

/-- Part of the work on a survey: it may use the classifiers made before, and add to them. -/
abbrev Work (α : Type) := StateM Classifiers α

namespace Survey

def note (message : Text) : Survey := ⟨[.noted ⟨.survey, message⟩], none⟩

/-- A path that could not be processed is noted in the log and recorded. -/
def failure (message path reason : Text) : Survey :=
  ⟨[.noted ⟨.survey, message⟩, .failed path reason], none⟩

/-- One survey after another; nothing follows one that was stopped. -/
def append (s u : Survey) : Survey :=
  if s.stopped.isSome then s else ⟨s.events ++ u.events, u.stopped⟩

instance : Append Survey := ⟨append⟩

/-- Make surveys one after the other; none is begun after one that was stopped. -/
def inTurn : List (Work Survey) → Work Survey
  | [] => pure {}
  | work :: rest => do
    let s ← work
    if s.stopped.isSome then return s
    return s ++ (← inTurn rest)

def counted (s : Survey) : List (FileCounts × Language) :=
  s.events.filterMap SurveyEvent.counted?

def records (s : Survey) : List LogRecord := s.events.filterMap SurveyEvent.noted?

end Survey

structure SurveyResult where
  aggregate : Aggregate := []
  files : List FileCounts := []
  /-- The paths that could not be processed, each with the reason. -/
  failed : List (Text × Text) := []

/-- Take in what happened. A file that was counted is added to the totals of its language first. -/
def SurveyResult.record (r : SurveyResult) : SurveyEvent → SurveyResult
  | .counted counts language =>
    let r := { r with aggregate := r.aggregate.addFile (counts, language) }
    { r with files := r.files ++ [counts] }
  | .failed path reason => { r with failed := r.failed ++ [(path, reason)] }
  | .noted _ => r

namespace Survey

/-- What a survey comes to. -/
def result (s : Survey) : SurveyResult := s.events.foldl SurveyResult.record {}

def aggregate (s : Survey) : Aggregate := s.result.aggregate

def files (s : Survey) : List FileCounts := s.result.files

/-- The paths that could not be processed, in order, each with the reason. -/
def failures (s : Survey) : List (Text × Text) := s.result.failed

/-- Did everything go well? -/
def ok (s : Survey) : Bool := s.failures.isEmpty

end Survey

end Bytewise
