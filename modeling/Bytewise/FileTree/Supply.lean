import Bytewise.FileTree.Basic
import Bytewise.Stream

/-!
# Supplies of streams

The files of a tree are read to their ends. What the system opens under a name may be any stream,
which hands over its bytes in whatever pieces and may fail midway: a supply gives such a stream, or
a refusal, for every name that the system can be asked for.
-/

namespace Bytewise

/-- The streams that the system opens, or its refusals, under the names that it can be asked for. -/
abbrev Supply := Text → Except SystemFault Stream

def Supply.opened (supply : Supply) (name : Text) : Except Fault Stream :=
  if .char '\x00' ∈ name then .error .nulInName else (supply name).mapError .system

def FileTree.supply (t : FileTree) : Supply := fun name =>
  match t.openRaw name with
  | .ok data => .ok (.ofFile data)
  | .error (.system cause) => .error cause
  | .error _ => .error .notFound

end Bytewise
