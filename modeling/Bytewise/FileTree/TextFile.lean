import Bytewise.FileTree.Basic
import Bytewise.Text.Line
import Bytewise.Text.Utf8

/-!
# Text files

A text file is read as UTF-8 with every line ending turned into a line feed. Settings and tables of
languages must be well-formed; a listing of checksums may name files by any bytes, so its stray
bytes are kept.
-/

namespace Bytewise.FileTree

/-- The text of a file, stray bytes included. -/
def readSymbols (t : FileTree) (name : Text) : Except Fault Text :=
  (fun data => universalNewlines (Utf8.decode data)) <$> t.openRaw name

/-- The characters of a text file; one that is not UTF-8 is refused. -/
def readText (t : FileTree) (name : Text) : Except Fault (List Char) := do
  match (← t.readSymbols name).chars? with
  | some cs => return cs
  | none => .error .undecodable

end Bytewise.FileTree
