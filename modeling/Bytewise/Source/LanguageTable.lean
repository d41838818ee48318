import Bytewise.FileTree.TextFile
import Bytewise.Package.Yaml
import Bytewise.Source.Registry

/-!
# Tables of languages

A table of languages is a YAML list with one mapping per language. Identifiers are converted to
whole numbers and everything else to text, so an entry fails only if a key is missing, a value
cannot be converted, or the language itself is refused. Entries are registered one by one; those
before the first bad one stay registered.

`Registry.standard` holds the languages that are known without any table.
-/

namespace Bytewise

namespace Language

/-- A language with C's comments: `//` to the end of the line, `/*` to `*/` otherwise. -/
def withSlashComments (id : Nat) (name : Text) (extensions : List Text) : Language where
  id := id + 1
  name := name
  extensions := extensions
  lineComment := Text.ofChars ['/', '/']
  blockStart := Text.ofChars ['/', '*']
  blockEnd := Text.ofChars ['*', '/']
  id_ne_zero := by omega
  lineComment_ne_nil := by decide
  blockStart_ne_nil := by decide
  blockEnd_ne_nil := by decide

/-- Comments from `#` to the end of the line; three quotes open and close the long ones. -/
def python : Language where
  id := 3
  name := "Python"
  extensions := [".py", ".pyw"]
  lineComment := Text.ofChars ['#']
  blockStart := Text.ofChars ['"', '"', '"']
  blockEnd := Text.ofChars ['"', '"', '"']
  id_ne_zero := by decide
  lineComment_ne_nil := by decide
  blockStart_ne_nil := by decide
  blockEnd_ne_nil := by decide

/-- The languages known without a table, in the order of their identifiers from one. -/
def standard : List Language :=
  [withSlashComments 0 "C" [".c", ".h"],
   withSlashComments 1 "C++" [".cpp", ".hpp", ".cc", ".hxx", ".cxx"],
   python,
   withSlashComments 3 "Java" [".java"],
   withSlashComments 4 "Go" [".go"],
   withSlashComments 5 "Rust" [".rs"],
   withSlashComments 6 "JavaScript" [".js", ".jsx", ".mjs"]]

def readAscii? (cs : List Char) : Option Int :=
  if cs.all (·.toNat < 0x80) then Numeral.readInteger? cs else none

/-- The identifier that a value stands for: fractions are cut, texts and bytes are read. -/
def idOf : Value → Except Fault Int
  | .real (.infinite _) => .error .tooLarge
  | .real x => match x.truncate? with
    | some n => .ok n
    | none => .error .languageEntry
  | .bytes data => match (Utf8.decode data).chars?.bind readAscii? with
    | some n => .ok n
    | none => .error .languageEntry
  | .text t => match t.chars?.bind Numeral.readInteger? with
    | some n => .ok n
    | none => .error .languageEntry
  | v => match v.int? with
    | some n => .ok n
    | none => .error .languageEntry

def entryField (entries : List (Value × Value)) (key : String) : Except Fault Value :=
  match Value.lookup (.text key) entries with
  | some v => .ok v
  | none => .error .languageEntry

/-- The language that an entry of a table describes. -/
def ofValue : Value → Except Fault Language
  | .map entries => do
    let id ← idOf (← entryField entries "id")
    let name ← entryField entries "name"
    let extensions ← match (← entryField entries "extensions").items? with
      | some items => .ok (items.map Value.shown)
      | none => .error .languageEntry
    let lineComment ← entryField entries "line_comment"
    let blockStart ← entryField entries "block_start"
    let blockEnd ← entryField entries "block_end"
    (make id name.shown extensions lineComment.shown blockStart.shown blockEnd.shown).mapError
      fun _ => .languageEntry
  | _ => .error .languageEntry

end Language

namespace Registry

/-- The registry of the languages known without a table. -/
def standard : Registry := (empty.after (registerAll Language.standard)).1

/-- Register the entries of a table until one fails; those before it stay registered. -/
def addEntries (entries : List Value) : Registering Unit :=
  entries.forM fun entry => do register (← MonadExcept.ofExcept (Language.ofValue entry))

def readEntries (yaml : YamlPackage) (t : FileTree) (name : Text) : Except Fault (List Value) := do
  match yaml.read (← t.readText name) with
  | .error .malformed => .error .languagesMalformed
  | .error (.refused cause) => .error cause.fault
  | .ok .null => return []
  | .ok (.list items) => return items
  | .ok v => .error (.languagesNotList v.kind)

/-- Add the languages of the table in a file. A file that is not there adds none. -/
def addTable (yaml : YamlPackage) (t : FileTree) (path : Path) : Registering Unit := do
  if ← MonadExcept.ofExcept (t.isPresent path.toText) then
    addEntries (← MonadExcept.ofExcept (readEntries yaml t path.toText))

/-- The registry that some work makes of none, unless it fails. -/
def made (work : Registering Unit) : Except Fault Registry :=
  match empty.after work with
  | (r, none) => .ok r
  | (_, some fault) => .error fault

/-- The registry of the languages of a table. -/
def ofTable (yaml : YamlPackage) (t : FileTree) (path : Path) : Except Fault Registry := do
  if !(← t.isPresent path.toText) then .error (.languagesMissing path.toText)
  else made (addTable yaml t path)

def ofLanguages (languages : List Language) : Except Fault Registry :=
  made (registerAll languages)

end Registry

end Bytewise
