import Bytewise.Fault

/-!
# Languages

A language is known by its comment markers and by the extensions of its files. The identifier zero
is kept for "no language", and a marker is never empty: an empty marker would match everywhere and
the scan of a file could not move on. Both rules are part of the type.
-/

namespace Bytewise

/-- Comment markers and file extensions of a language. -/
structure Language where
  id : Int
  name : Text
  /-- Extensions with their dot, in the order they were declared. -/
  extensions : List Text
  /-- Opens a comment that runs to the end of the line. -/
  lineComment : Text
  /-- Opens a comment that may run over several lines. -/
  blockStart : Text
  /-- Closes such a comment. -/
  blockEnd : Text
  id_ne_zero : id ≠ 0
  lineComment_ne_nil : lineComment ≠ []
  blockStart_ne_nil : blockStart ≠ []
  blockEnd_ne_nil : blockEnd ≠ []
  deriving DecidableEq

namespace Language

/-- Check the parts of a language: the identifier first, then the markers. -/
def make (id : Int) (name : Text) (extensions : List Text)
    (lineComment blockStart blockEnd : Text) : Except Fault Language :=
  if hid : id = 0 then .error .reservedId
  else if hline : lineComment = [] then .error (.emptyMarker name)
  else if hstart : blockStart = [] then .error (.emptyMarker name)
  else if hend : blockEnd = [] then .error (.emptyMarker name)
  else .ok ⟨id, name, extensions, lineComment, blockStart, blockEnd, hid, hline, hstart, hend⟩

end Language

/-- The comment markers of a language as bytes, which is how a file is compared with them. -/
structure Markers where
  line : Bytes
  blockStart : Bytes
  blockEnd : Bytes
  deriving DecidableEq, Repr

def Symbol.asciiByte? : Symbol → Option UInt8
  | .char c => if c.toNat < 0x80 then some c.toNat.toUInt8 else none
  | .stray _ => none

def Text.ascii? (t : Text) : Option Bytes := t.mapM Symbol.asciiByte?

/-- The markers of a language as bytes; a marker outside ASCII has none. -/
def Language.markers (l : Language) : Except Fault Markers :=
  match l.lineComment.ascii?, l.blockStart.ascii?, l.blockEnd.ascii? with
  | some line, some blockStart, some blockEnd => .ok ⟨line, blockStart, blockEnd⟩
  | _, _, _ => .error .unencodable

end Bytewise
