import Bytewise.FileTree.Buffer
import Bytewise.Package.Patterns
import Bytewise.Source.LanguageTable
import Bytewise.Survey.Basic

/-!
# Surveying files and directories

A surveyor walks directories depth first, in the order of the names, and counts every regular file
whose language the registry knows. Hidden entries and entries under an ignore pattern are passed
over, and so are symbolic links: a link inside a directory is neither followed nor counted, so the
walk follows the tree itself and ends.

A path that is named in the request is treated differently from one that is met on the way: links
are followed, no ignore pattern applies, and an unknown language is a failure.

All of this is `Work`: the classifier of a language is made when the first file of that language is
counted, and serves for all files after it, of this request and of later ones.
-/

namespace Bytewise

structure Surveyor where
  registry : Registry
  /-- Is a path ignored? It is given from the directory where the walk began; that of a directory is
  also tried with a slash behind it. -/
  ignores : Text → Bool := fun _ => false
  /-- Are entries passed over whose name starts with a dot? -/
  skipHidden : Bool := true
  /-- How much of a header is looked at to tell its language. -/
  sniff : ReadSize := defaultSniff
  /-- Are files mapped into memory where possible? -/
  mapping : Bool := true

namespace Surveyor

/-- What the patterns in a value ignore; the value may be anything that can be gone through. -/
def ignoredBy (package : PatternPackage) (patterns : Value) : Except Fault (Text → Bool) :=
  match patterns.items? with
  | some [] => .ok fun _ => false
  | some items => package.compile items
  | none => .error .wrongKind

/-- Set a surveyor up from values of settings. An empty registry stands for the standard one, and
empty patterns of any kind for none. -/
def make (package : PatternPackage) (registry : Registry)
    (patterns skipHidden sniff mapping : Value) : Except Fault Surveyor := do
  let ignores ← if patterns.truthy then ignoredBy package patterns else .ok fun _ => false
  return {
    registry := if registry.languages.isEmpty then .standard else registry
    ignores := ignores
    skipHidden := skipHidden.truthy
    sniff := ReadSize.ofValue sniff
    mapping := mapping.truthy }

/-- The surveyor with other patterns. -/
def withPatterns (package : PatternPackage) (s : Surveyor) (patterns : Value) :
    Except Fault Surveyor := do
  let ignores ← ignoredBy package patterns
  return { s with ignores := ignores }

/-! ## Counting a file -/

/-- The outcome of counting one file, and what there is to note about its detection. -/
structure FileOutcome where
  counts : Except Fault (FileCounts × Language)
  notes : List LogRecord := []

/-- The record of a file that was counted. -/
def countedRecord (c : FileCounts) (language : Language) : LogRecord :=
  let number (n : Nat) : Text := Text.ofChars (Numeral.digits 10 n)
  ⟨.survey, c.path ++ ": " ++ language.name ++ " code=" ++ number c.tally.code ++ " comment=" ++
    number c.tally.comment ++ " blank=" ++ number c.tally.blank⟩

def classifyFile (s : Surveyor) (t : FileTree) (path : Text) (language : Language)
    (made : Classifiers) : Except Fault (FileCounts × Classifiers) := do
  let buffer ← t.openBuffer path s.mapping
  let (classifier, made) ← made.provide language
  return (classifier.count path buffer.bytes, made)

/-- Detect the language of a file and classify its lines. -/
def countFile (s : Surveyor) (t : FileTree) (path : Text) : Work FileOutcome := fun made =>
  let detection := s.registry.detectFile t path s.sniff
  let notes : List LogRecord := (detection.note.map (⟨.registry, ·⟩)).toList
  match detection.language with
  | .error fault => (⟨.error fault, notes⟩, made)
  | .ok none => (⟨.error (.unsupported path), notes⟩, made)
  | .ok (some language) =>
    match s.classifyFile t path language made with
    | .error fault => (⟨.error fault, notes⟩, made)
    | .ok (counts, made) =>
      (⟨.ok (counts, language), notes ++ [countedRecord counts language]⟩, made)

namespace FileOutcome

def noted (outcome : FileOutcome) (stopped : Option Fault := none) : Survey :=
  ⟨outcome.notes.map .noted, stopped⟩

/-- The survey of a file that was met on the way; one of an unknown language is passed over. -/
def metSurvey (path : Text) (outcome : FileOutcome) : Survey :=
  match outcome.counts with
  | .ok (counts, language) => outcome.noted ++ ⟨[.counted counts language], none⟩
  | .error (.unsupported _) =>
    outcome.noted ++ .note ("Skipping file of unknown language: " ++ path)
  | .error (.unreadable _ reason) =>
    outcome.noted ++ .failure ("Error reading file: " ++ path ++ " - " ++ reason) path reason
  | .error fault => outcome.noted (some fault)

/-- The survey of a file that was asked for by a name; one of an unknown language is a failure. -/
def namedSurvey (path given : Text) (outcome : FileOutcome) : Survey :=
  let failed (reason : Text) : Survey :=
    outcome.noted ++
      .failure ("Error processing file: " ++ path ++ " - " ++ reason) given reason
  match outcome.counts with
  | .ok (counts, language) => outcome.noted ++ ⟨[.counted counts language], none⟩
  | .error (.unsupported _) => failed "unsupported language"
  | .error (.unreadable _ reason) => failed reason
  | .error fault => outcome.noted (some fault)

end FileOutcome

def visitFile (s : Surveyor) (t : FileTree) (path : Text) : Work Survey :=
  FileOutcome.metSurvey path <$> s.countFile t path

/-! ## Walking a directory -/

/-- Is an entry of a directory passed over? The relative path is that below the directory where the
walk began. -/
def passesOver (s : Surveyor) (relative : List Text) (name : Text) (directory : Bool) : Bool :=
  let path := Text.join [Path.slash] (relative ++ [name])
  (s.skipHidden && name.head? = some (.char '.')) ||
    s.ignores path || (directory && s.ignores (path ++ [Path.slash]))

inductive Treatment where
  /-- The system refuses to say what the entry is. -/
  | unreachable (cause : SystemFault)
  | passedOver
  | entered
  | counted
  /-- A symbolic link is left alone. -/
  | leftAlone
  deriving DecidableEq, Repr

/-- The name by which the system is asked about an entry of a directory. -/
def askedName (path : Path) (name : Text) : Text := path.toText ++ Path.slash :: name

/-- Why the system refuses to say what an entry is, if it does: the whole name is too long, or the
directory does not let its entries be reached. -/
def refusal? (path : Path) (access : Access) (name : Text) : Option SystemFault :=
  if FileTree.nameLimit < (askedName path name).encode.length then some .nameTooLong
  else if access.search then none
  else some .denied

def treatment (s : Surveyor) (path : Path) (relative : List Text) (access : Access) (name : Text)
    (node : Node) : Treatment :=
  match refusal? path access name with
  | some cause => .unreachable cause
  | none =>
    if s.passesOver relative name node.isDirectory then .passedOver
    else match node with
      | .directory _ _ => .entered
      | .file _ _ => .counted
      | .link _ => .leftAlone

/-- The work on an entry of a directory where it stands; what is in a directory is not part of it.
-/
def meet (s : Surveyor) (t : FileTree) (path : Path) (name : Text) : Treatment → Work Survey
  | .unreachable cause =>
    pure (.note ("Cannot stat " ++ (path.child name).toText ++ ": " ++
      cause.logged (some (askedName path name))))
  | .passedOver => pure (.note ("Ignoring: " ++ (path.child name).toText))
  | .counted => s.visitFile t (path.child name).toText
  | .leftAlone => pure {}
  | .entered => pure {}

/-- The work on entries, in the order of their names. -/
def inOrder (works : List (Text × Work Survey)) : Work Survey :=
  Survey.inTurn ((works.mergeSort fun a b => Text.le a.1 b.1).map Prod.snd)

def unlisted (path : Text) (cause : SystemFault) : Survey :=
  .failure ("Error accessing directory: " ++ path ++ " - " ++ cause.reason) path cause.reason

mutual

/-- Survey what is below a node, if it is a directory; `relative` lists the names from the directory
where the walk began. -/
def walk (s : Surveyor) (t : FileTree) (path : Path) (relative : List Text) : Node → Work Survey
  | .directory access entries =>
    if access.read then inOrder (walkEntries s t path relative access entries)
    else pure (unlisted path.toText .denied)
  | .file _ _ => pure {}
  | .link _ => pure {}

def walkEntries (s : Surveyor) (t : FileTree) (path : Path) (relative : List Text)
    (access : Access) : List (Text × Node) → List (Text × Work Survey)
  | [] => []
  | (name, node) :: rest =>
    let work : Work Survey := match s.treatment path relative access name node with
      | .entered => walk s t (path.child name) (relative ++ [name]) node
      | treatment => s.meet t path name treatment
    (name, work) :: walkEntries s t path relative access rest

end

/-- Survey everything below a directory. A path that cannot be listed is a failure. -/
def scan (s : Surveyor) (t : FileTree) (path : Path) : Work Survey :=
  match t.find path.toText with
  | .error (.system cause) => pure (unlisted path.toText cause)
  | .error fault => pure ⟨[], some fault⟩
  | .ok (.directory access entries) => s.walk t path [] (.directory access entries)
  | .ok _ => pure (unlisted path.toText .notDirectory)

/-! ## Requests -/

def visit (s : Surveyor) (t : FileTree) (given : Text) : Work Survey :=
  let path := Path.ofText given
  match t.find path.toText with
  | .error (.system cause) =>
    pure (.failure ("Cannot access " ++ path.toText ++ ": " ++ cause.reason) given cause.reason)
  | .error fault => pure ⟨[], some fault⟩
  | .ok (.directory _ _) => s.scan t path
  | .ok _ => FileOutcome.namedSurvey path.toText given <$> s.countFile t path.toText

def run (s : Surveyor) (t : FileTree) (paths : List Text) : Work Survey :=
  Survey.inTurn (paths.map (s.visit t))

end Surveyor

end Bytewise
