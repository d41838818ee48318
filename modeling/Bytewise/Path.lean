import Bytewise.Text.Symbol

/-!
# Paths

A path is a list of parts, absolute or relative. Reading one from a text drops empty parts and parts
`.`, so that `a//b/` and `./a/b` are the same path; `..` is kept, because what it leads to depends
on the links of the file system. The path without parts is written `.`.

Two notions of a file's ending are in use. The `suffix` of a settings file is empty for names that
start or end with their last dot; the `extension` of a source file starts at the last dot wherever
it stands.
-/

namespace Bytewise

/-- A path in normal form: no part is empty or `.`. -/
structure Path where
  absolute : Bool
  parts : List Text
  deriving DecidableEq, Repr

namespace Path

def slash : Symbol := .char '/'

def ofText (t : Text) : Path where
  absolute := t.head? == some slash
  parts := (t.splitAt slash).filter fun part => !part.isEmpty && part != Text.ofString "."

def toText (p : Path) : Text :=
  let body := Text.join [slash] p.parts
  if p.absolute then slash :: body
  else if body.isEmpty then "." else body

def name (p : Path) : Text := p.parts.getLast?.getD []

def parent (p : Path) : Path := { p with parts := p.parts.dropLast }

/-- A name inside the directory that a path leads to. -/
def child (p : Path) (part : Text) : Path := { p with parts := p.parts ++ [part] }

/-- One path after another; an absolute one stands alone. -/
def append (p q : Path) : Path :=
  if q.absolute then q else { p with parts := p.parts ++ q.parts }

def fromLastDot? (name : Text) : Option Text :=
  let dot := Symbol.char '.'
  if name.contains dot then
    some (dot :: (name.reverse.takeWhile (· != dot)).reverse)
  else none

/-- The ending that names the format of a settings file. -/
def suffix (p : Path) : Text :=
  match fromLastDot? p.name with
  | none => []
  | some ending =>
    if ending.length < p.name.length && 1 < ending.length then ending else []

/-- The ending that names the language of a source file; a leading dot counts. -/
def extension (p : Path) : Text := (fromLastDot? p.name).getD []

end Path

end Bytewise
