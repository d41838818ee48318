import Bytewise.Value.Basic

/-!
# Settings

There are eleven settings in five sections. Since loading does not check kinds, settings are a
function from fields to values; the sections and keys under which they are written are properties of
the fields. Whatever is said about "each field" is then said once, by quantifying over `Field`.
-/

namespace Bytewise

/-- The sections of a settings file, in the order they are read and written. -/
inductive Section where
  | cloc
  | checksum
  | countfile
  | hexdump
  | logging
  deriving DecidableEq, Repr

inductive Field where
  | ignorePatterns
  | skipHidden
  | headerSniffBytes
  | useMmap
  | algorithm
  | chunkSize
  | bufferSize
  | bytesPerLine
  | suppressDuplicates
  | logLevel
  | logFormat
  deriving DecidableEq, Repr

namespace Section

def all : List Section := [.cloc, .checksum, .countfile, .hexdump, .logging]

def heading : Section → Text
  | .cloc => "cloc"
  | .checksum => "checksum"
  | .countfile => "countfile"
  | .hexdump => "hexdump"
  | .logging => "logging"

/-- The settings of a section, in the order they are written. -/
def fields : Section → List Field
  | .cloc => [.ignorePatterns, .skipHidden, .headerSniffBytes, .useMmap]
  | .checksum => [.algorithm, .chunkSize]
  | .countfile => [.bufferSize]
  | .hexdump => [.bytesPerLine, .suppressDuplicates]
  | .logging => [.logLevel, .logFormat]

end Section

namespace Field

def key : Field → Text
  | .ignorePatterns => "ignore_patterns"
  | .skipHidden => "skip_hidden"
  | .headerSniffBytes => "header_sniff_bytes"
  | .useMmap => "use_mmap"
  | .algorithm => "algorithm"
  | .chunkSize => "chunk_size"
  | .bufferSize => "buffer_size"
  | .bytesPerLine => "bytes_per_line"
  | .suppressDuplicates => "suppress_duplicates"
  | .logLevel => "level"
  | .logFormat => "format"

/-- The value of a setting that nobody sets. -/
def default : Field → Value
  | .ignorePatterns => .list []
  | .skipHidden => .bool true
  | .headerSniffBytes => .int 4096
  | .useMmap => .bool true
  | .algorithm => "crc32"
  | .chunkSize => .int 8192
  | .bufferSize => .int 16384
  | .bytesPerLine => .int 16
  | .suppressDuplicates => .bool true
  | .logLevel => "WARNING"
  | .logFormat => "%(name)s - %(levelname)s - %(message)s"

end Field

structure Settings where
  get : Field → Value

namespace Settings

def default : Settings := ⟨Field.default⟩

def set (s : Settings) (f : Field) (v : Value) : Settings :=
  ⟨fun g => if g = f then v else s.get g⟩

@[simp] theorem get_set_self (s : Settings) (f : Field) (v : Value) : (s.set f v).get f = v := by
  simp [set]

@[simp] theorem get_set_of_ne (s : Settings) {f g : Field} (v : Value) (h : g ≠ f) :
    (s.set f v).get g = s.get g := by
  simp [set, h]

def sectionValue (s : Settings) (sec : Section) : Value :=
  .map (sec.fields.map fun f => (.text f.key, s.get f))

/-- All settings as a mapping of sections. -/
def toValue (s : Settings) : Value :=
  .map (Section.all.map fun sec => (.text sec.heading, s.sectionValue sec))

end Settings

end Bytewise
