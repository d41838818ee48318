import Bytewise.FileTree.TextFile
import Bytewise.FileTree.Update
import Bytewise.Json.Reader
import Bytewise.Json.Writer
import Bytewise.Package.Yaml
import Bytewise.Settings.Environment

/-!
# Settings files

A settings file is a mapping of sections, in YAML or JSON by its suffix. Sections that are missing
or empty keep their defaults; a key that a section does not have is refused. Loading resolves each
setting in the order environment, file, default.
-/

namespace Bytewise

namespace Settings

/-- The values of a section as a mapping, after the check that it has only known keys. Anything that
can be gone through item by item is looked at for unknown keys before its kind matters. -/
def checkSection (sec : Section) (v : Value) : Except Fault (List (Value × Value)) :=
  let known (key : Value) : Bool := sec.fields.any fun f => key.sameKey (.text f.key)
  let text? : Value → Option Text
    | .text t => some t
    | _ => none
  match v.items? with
  | none => .error .wrongKind
  | some items =>
    if !items.all Value.isKey then .error .wrongKind
    else
      let unknown := items.filter (!known ·)
      match unknown.mapM text? with
      | none => .error .wrongKind
      | some [] =>
        match v with
        | .map entries => .ok entries
        | _ => .error .wrongKind
      | some names => .error (.unknownKeys sec.heading (names.mergeSort Text.le).eraseDups)

def takeSection (entries : List (Value × Value)) (s : Settings) (sec : Section) :
    Except Fault Settings :=
  match Value.lookup (.text sec.heading) entries with
  | none => .ok s
  | some v =>
    if !v.truthy then .ok s
    else do
      let values ← checkSection sec v
      return sec.fields.foldl (fun s f =>
        match Value.lookup (.text f.key) values with
        | some v => s.set f v
        | none => s) s

/-- The settings that a mapping of sections gives. -/
def ofMap (entries : List (Value × Value)) : Except Fault Settings :=
  Section.all.foldlM (takeSection entries) Settings.default

inductive Format where
  | yaml
  | json

def formatOf (suffix : Text) : Except Fault Format :=
  if suffix = Text.ofString ".yaml" || suffix = Text.ofString ".yml" then .ok .yaml
  else if suffix = Text.ofString ".json" then .ok .json
  else .error (.settingsSuffix suffix)

def write (yaml : YamlPackage) (s : Settings) : Format → Except Fault (List Char)
  | .yaml => yaml.write s.toValue
  | .json => Json.write s.toValue

/-- Read the text of a settings file as a value. Nothing, in either format, is an empty mapping; so
is any empty or zero value in YAML. -/
def readDocument (yaml : YamlPackage) (format : Format) (cs : List Char) :
    Except DocumentFault Value :=
  match format with
  | .yaml => do
    let v ← yaml.read cs
    return if v.truthy then v else .map []
  | .json => if cs.all isBlankChar then .ok (.map []) else Json.read cs

def ofFile (yaml : YamlPackage) (t : FileTree) (path : Path) : Except Fault Settings := do
  let name := path.toText
  if !(← t.isPresent name) then .error (.settingsMissing name)
  else
    let cs ← t.readText name
    let format ← formatOf path.suffix
    match readDocument yaml format cs with
    | .error .malformed => .error (.settingsMalformed name)
    | .error (.refused cause) => .error cause.fault
    | .ok (.map entries) => ofMap entries
    | .ok _ => .error (.settingsNotMapping name)

/-- The file to load settings from: the one given, else the one the environment names. An empty name
means none. -/
def fileName (env : Environment) (given : Option Text) (useEnvironment : Bool) : Option Text :=
  let name := match given with
    | some name => some name
    | none => if useEnvironment then env.lookup settingsVariable else none
  name.filter (!·.isEmpty)

/-- Load settings: from a file or the defaults, overridden by the environment if it is used. -/
def load (yaml : YamlPackage) (t : FileTree) (env : Environment) (given : Option Text)
    (useEnvironment : Bool) : Except Fault Settings := do
  let s ← match fileName env given useEnvironment with
    | some name => ofFile yaml t (Path.ofText name)
    | none => .ok Settings.default
  if useEnvironment then
    match s.override env with
    | (s, none) => return s
    | (_, some fault) => .error fault
  else return s

def save (yaml : YamlPackage) (s : Settings) (path : Path) (t : FileTree) :
    Except Fault FileTree := do
  let format ← formatOf path.suffix
  let cs ← s.write yaml format
  t.writeFile path (Text.ofChars cs).encode

end Settings

end Bytewise
