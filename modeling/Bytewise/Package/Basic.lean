import Bytewise.Package.CommandLine
import Bytewise.Package.Patterns
import Bytewise.Package.Terminal
import Bytewise.Package.Yaml

/-!
# The packages of a program

The programs are built on packages for command lines, terminals, YAML and ignore patterns. What
these do is no part of the library: a program is given its packages, and what is relied on about one
of them is said where it is relied on.
-/

namespace Bytewise

/-- The packages that the programs are built on. -/
structure Packages where
  commandLine : CommandLinePackage
  terminal : TerminalPackage
  yaml : YamlPackage
  patterns : PatternPackage

end Bytewise
