import Bytewise.Text.Symbol

/-!
# Log records

The parts of the library that have something to say to whoever watches a run return it as records;
what becomes of them is decided by the settings of the log. All records are details of the lowest
level.
-/

namespace Bytewise

/-- The part of the library that writes a record. -/
inductive LogOrigin where
  | checksum
  | checksumCommand
  | wordCount
  | lineDiff
  | dump
  | dumpCommand
  | registry
  | survey
  deriving DecidableEq, Repr

def LogOrigin.name : LogOrigin → Text
  | .checksum => "devutils.checksum"
  | .checksumCommand => "devutils.cli.checksum"
  | .wordCount => "devutils.countfile"
  | .lineDiff => "devutils.diff"
  | .dump => "devutils.hexdump"
  | .dumpCommand => "devutils.cli.hexdump"
  | .registry => "devutils.cloc.language_registry"
  | .survey => "devutils.cloc.scanner"

structure LogRecord where
  origin : LogOrigin
  message : Text
  deriving DecidableEq, Repr

end Bytewise
