import Bytewise.Source.Language
import Bytewise.Text.Blank

/-!
# Classifying lines

One pass over the bytes of a file decides for each line whether it is code, comment or blank. The
scan is in one of four modes: code, a comment to the end of the line, a block comment, or a string.
At each byte the first rule that applies is taken:

1. a line feed closes the line and ends a line comment; block comments and strings go on;
2. a blank is passed over;
3. inside a string every byte is code, and the quote that opened the string closes it unless a
   backslash stands before it;
4. in code a quote opens a string;
5. in code the block marker opens a block comment;
6. in a block comment the end marker closes it;
7. in code the line marker opens a line comment;
8. any other byte is code where code is expected, and is passed over in comments.

A line is blank if none of these made it code or comment. A last line without a line feed is closed
at the end of the file.
-/

namespace Bytewise

structure LineTally where
  code : Nat := 0
  comment : Nat := 0
  blank : Nat := 0
  deriving DecidableEq, Repr

def LineTally.total (t : LineTally) : Nat := t.code + t.comment + t.blank

/-- Where a scan is. -/
inductive Mode where
  | code
  | lineComment
  | blockComment
  /-- Inside a string opened by this quote. -/
  | string (quote : UInt8)
  deriving DecidableEq, Repr

/-- A scan between two bytes. -/
structure Scan where
  mode : Mode := .code
  /-- Has the current line shown code, or a comment? -/
  hasCode : Bool := false
  hasComment : Bool := false
  /-- The byte before the cursor. -/
  previous : UInt8 := 0
  tally : LineTally := {}
  deriving DecidableEq, Repr

namespace Scan

def isQuote (b : UInt8) : Bool := b == 0x22 || b == 0x27

def backslash : UInt8 := 0x5C

def closeLine (s : Scan) : LineTally :=
  let comment := { s.tally with comment := s.tally.comment + 1 }
  match s.mode with
  | .lineComment => comment
  | .blockComment => comment
  | _ =>
    if s.hasCode then { s.tally with code := s.tally.code + 1 }
    else if s.hasComment then comment
    else { s.tally with blank := s.tally.blank + 1 }

def nextLine (s : Scan) : Scan where
  mode := if s.mode = .lineComment then .code else s.mode
  hasCode := false
  hasComment := false
  previous := s.previous
  tally := s.closeLine

/-- One step of the scan at a byte, with the bytes after it: the scan behind what was taken, and how
many bytes beyond the first were taken with it. -/
def step (m : Markers) (s : Scan) (b : UInt8) (rest : Bytes) : Scan × Nat :=
  if b = newline then (s.nextLine, 0)
  else if isBlankByte b then (s, 0)
  else match s.mode with
    | .string quote =>
      let closes := b = quote ∧ s.previous ≠ backslash
      ({ s with hasCode := true, mode := if closes then .code else s.mode }, 0)
    | .code =>
      if isQuote b then ({ s with mode := .string b, hasCode := true }, 0)
      else if m.blockStart.isPrefixOf (b :: rest) then
        ({ s with mode := .blockComment, hasComment := true }, m.blockStart.length - 1)
      else if m.line.isPrefixOf (b :: rest) then
        ({ s with mode := .lineComment, hasComment := true }, m.line.length - 1)
      else ({ s with hasCode := true }, 0)
    | .blockComment =>
      if m.blockEnd.isPrefixOf (b :: rest) then
        ({ s with mode := .code, hasComment := true }, m.blockEnd.length - 1)
      else (s, 0)
    | .lineComment => (s, 0)

/-- Scan bytes; the number counts the bytes still to be passed over because a marker took them. -/
def run (m : Markers) : Nat → Scan → Bytes → Scan
  | _, s, [] => s
  | taken + 1, s, b :: rest => run m taken { s with previous := b } rest
  | 0, s, b :: rest =>
    let next := s.step m b rest
    run m next.2 { next.1 with previous := b } rest

/-- The tally at the end of the file: a line that was not closed by a line feed is closed now. -/
def finish (s : Scan) : LineTally := if s.previous = newline then s.tally else s.closeLine

end Scan

def Markers.classify (m : Markers) (start : LineTally) (data : Bytes) : LineTally :=
  if data.isEmpty then start else (Scan.run m 0 { tally := start } data).finish

/-! ## Classifiers at hand -/

/-- A language made ready to classify files, with its markers as bytes. -/
structure Classifier where
  language : Language
  markers : Markers
  markers_eq : language.markers = .ok markers

/-- Make the classifier of a language; one with a marker outside ASCII has none. -/
def Classifier.make (l : Language) : Except Fault Classifier :=
  match encoded : l.markers with
  | .ok markers => .ok ⟨l, markers, encoded⟩
  | .error fault => .error fault

/-- The classifiers made so far, each under the identifier of the language it was made for. -/
abbrev Classifiers := List (Int × Classifier)

/-- The classifier for a language: one that was made under its identifier before, or a new one,
which is kept. -/
def Classifiers.provide (made : Classifiers) (l : Language) :
    Except Fault (Classifier × Classifiers) :=
  match made.lookup l.id with
  | some classifier => .ok (classifier, made)
  | none => do
    let classifier ← Classifier.make l
    return (classifier, (l.id, classifier) :: made)

end Bytewise
