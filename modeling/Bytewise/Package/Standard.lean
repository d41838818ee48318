import Bytewise.Command.ArgumentReader
import Bytewise.Command.ErrorLine
import Bytewise.Ignore.Pattern
import Bytewise.Package.Basic
import Bytewise.Survey.Drawing
import Bytewise.Yaml.Reader
import Bytewise.Yaml.Writer

/-!
# Packages of our own

The executable comes with packages of its own. They do what the programs ask of packages, for the
part of YAML and of the layouts that the programs use; other packages may do more, and word their
complaints otherwise.
-/

namespace Bytewise

/-- The reader and the writer of block style. -/
def YamlPackage.standard : YamlPackage := ⟨Yaml.read, Yaml.write⟩

/-- The patterns of a version-control ignore file. -/
def PatternPackage.standard : PatternPackage where
  compile values := IgnoreRules.ignoresPath <$> IgnoreRules.ofValues values

namespace CommandLinePackage

def wording : UsageFault → Text
  | .noSuchOption => "no such option"
  | .badOptionUsage => "an option lacks its value or takes none"
  | .badParameter => "invalid value of an option"
  | .badCommand => "no such command"

def commandPath (command : Invocation) : Text :=
  if command.below then "dev-utils " ++ command.program else command.program

def standard : CommandLinePackage where
  read := Arguments.read
  complaint command fault := Text.encodeShown
    ("Usage: " ++ commandPath command ++ " [OPTIONS] [ARGS]...\nError: " ++ wording fault ++ "\n")

end CommandLinePackage

def TerminalPackage.standard : TerminalPackage := ⟨ErrorLine.line, Table.draw⟩

def Packages.standard : Packages where
  commandLine := .standard
  terminal := .standard
  yaml := .standard
  patterns := .standard

end Bytewise
