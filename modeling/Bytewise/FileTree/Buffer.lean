import Bytewise.FileTree.Basic

/-!
# Whole files as buffers

A file that is classified is held in memory as a whole. It is mapped if that is asked for and there
is something to map, and copied otherwise; both show the same bytes.
-/

namespace Bytewise

inductive Buffer where
  | mapped (data : Bytes)
  | copied (data : Bytes)
  deriving DecidableEq, Repr

def Buffer.bytes : Buffer → Bytes
  | .mapped data => data
  | .copied data => data

/-- Open a file as a buffer; an empty file cannot be mapped. -/
def FileTree.openBuffer (t : FileTree) (name : Text) (mapping : Bool) : Except Fault Buffer := do
  let data ← t.openFile name
  return if mapping && !data.isEmpty then .mapped data else .copied data

end Bytewise
