import Bytewise.Settings.Field

/-!
# Environment overrides

Nine of the settings can be overridden by environment variables, which are taken in a fixed order. A
variable that has to hold a whole number and does not ends the process; the overrides before it stay
made.
-/

namespace Bytewise

abbrev Environment := List (Text × Text)

/-- How the text of a variable becomes a value. -/
inductive Conversion where
  | truth
  | whole
  | text
  deriving DecidableEq, Repr

namespace Conversion

/-- A letter in its small form, as far as the words compared here need it. -/
def lowerSymbol : Symbol → Symbol
  | .char c => .char c.toLower
  | s => s

def meansYes (t : Text) : Bool :=
  ["true", "1", "yes", "on"].any fun w => t.map lowerSymbol = Text.ofString w

def convert (c : Conversion) (t : Text) : Option Value :=
  match c with
  | .truth => some (.bool (meansYes t))
  | .text => some (.text t)
  | .whole => match t.chars? with
    | some cs => (Numeral.readInteger? cs).map Value.int
    | none => none

end Conversion

/-- A variable, the setting it overrides, and how it is converted. -/
structure Override where
  name : Text
  field : Field
  conversion : Conversion

/-- The overrides, in the order they are made. -/
def overrides : List Override :=
  [⟨"DEVUTILS_CLOC_SKIP_HIDDEN", .skipHidden, .truth⟩,
   ⟨"DEVUTILS_CLOC_HEADER_SNIFF_BYTES", .headerSniffBytes, .whole⟩,
   ⟨"DEVUTILS_CLOC_USE_MMAP", .useMmap, .truth⟩,
   ⟨"DEVUTILS_CHECKSUM_ALGORITHM", .algorithm, .text⟩,
   ⟨"DEVUTILS_CHECKSUM_CHUNK_SIZE", .chunkSize, .whole⟩,
   ⟨"DEVUTILS_COUNTFILE_BUFFER_SIZE", .bufferSize, .whole⟩,
   ⟨"DEVUTILS_HEXDUMP_BYTES_PER_LINE", .bytesPerLine, .whole⟩,
   ⟨"DEVUTILS_HEXDUMP_SUPPRESS_DUPLICATES", .suppressDuplicates, .truth⟩,
   ⟨"DEVUTILS_LOGGING_LEVEL", .logLevel, .text⟩]

def settingsVariable : Text := "DEVUTILS_CONFIG"

namespace Settings

/-- Make overrides one after the other until one fails. -/
def overrideFrom (env : Environment) : List Override → Settings → Settings × Option Fault
  | [], s => (s, none)
  | o :: rest, s =>
    match env.lookup o.name with
    | none => overrideFrom env rest s
    | some t =>
      match o.conversion.convert t with
      | some v => overrideFrom env rest (s.set o.field v)
      | none => (s, some (.badVariable o.name t))

/-- The settings under an environment, and the fault of the first variable that is refused. -/
def override (env : Environment) (s : Settings) : Settings × Option Fault :=
  overrideFrom env overrides s

end Settings

end Bytewise
