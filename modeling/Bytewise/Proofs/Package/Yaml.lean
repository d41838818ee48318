import Bytewise.Package.Yaml
import Bytewise.Proofs.Text.Encoding

/-!
# Documents that packages for YAML read back

A package for YAML reads what it wrote as the value that it was written of. This is asked here of as
much as settings need: of mappings whose values are mappings in turn, both under given names, and of
truth values, numbers, texts and lists of texts in them (`YamlPackage.KeepsGroups`). The document is
text with line feeds alone for its ends of lines.
-/

namespace Bytewise

/-- What stands under a name in a group: a value that is written without a tag. Texts have no
strays, and a number can be converted to its digits. -/
inductive IsMember : Value → Prop where
  | bool (b : Bool) : IsMember (.bool b)
  | int {n : Int} (short : Numeral.isShort n = true) : IsMember (.int n)
  | text {t : Text} (printable : t.Printable) : IsMember (.text t)
  | texts {texts : List Text} (printable : ∀ t ∈ texts, t.Printable) :
      IsMember (.list (texts.map .text))

structure AreNamed (names : List Text) (entries : List (Value × Value)) : Prop where
  inhabited : entries ≠ []
  distinct : (entries.map Prod.fst).Nodup
  named : ∀ e ∈ entries, ∃ name ∈ names, e.1 = .text name

def IsGroup (names : List Text) (v : Value) : Prop :=
  ∃ entries, v = .map entries ∧ AreNamed names entries ∧ ∀ e ∈ entries, IsMember e.2

/-- A package reads a mapping of groups from the document that it writes of it. -/
def YamlPackage.KeepsGroups (yaml : YamlPackage) (names : List Text) : Prop :=
  ∀ groups, AreNamed names groups → (∀ e ∈ groups, IsGroup names e.2) →
    ∃ cs, yaml.write (.map groups) = .ok cs ∧ '\r' ∉ cs ∧ yaml.read cs = .ok (.map groups)

end Bytewise
