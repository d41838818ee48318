import Bytewise.Value.Document

/-!
# Packages for YAML

Files in YAML are read and written by a package. All that the library makes use of is which value
the text of a document has, or why it has none, and which text a value is written as; so the package
is a parameter of whatever reads or writes such files.
-/

namespace Bytewise

/-- A package that reads and writes YAML. -/
structure YamlPackage where
  read : List Char → Except DocumentFault Value
  write : Value → Except Fault (List Char)

end Bytewise
