import Bytewise.Survey.Table

/-!
# Packages for terminals

Messages and tables are laid out for a terminal by a package.
-/

namespace Bytewise

/-- A package that lays out text for a terminal. -/
structure TerminalPackage where
  /-- The line that reports a message of a program. -/
  errorLine : (program message : Text) → Text
  /-- A table, drawn in a box. -/
  draw : Table → Text

end Bytewise
