import Bytewise.Value.Basic

/-!
# Packages for ignore patterns

Whether the lines of an ignore file ignore a path is for a package to say. The lines come from
settings, so they may be values of any kind, and the package may refuse them.
-/

namespace Bytewise

/-- A package that matches paths against the lines of an ignore file. -/
structure PatternPackage where
  /-- The paths that lines ignore. -/
  compile : List Value → Except Fault (Text → Bool)

end Bytewise
