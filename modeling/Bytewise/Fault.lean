import Bytewise.Text.Quoted

/-!
# Causes of failure

Every way in which an operation of the library can fail is one constructor of `Fault`; what the user
reads is `Fault.message`. `SystemFault` is the part that the operating system decides. Keeping the
cause apart from its wording lets a caller decide by the cause: a file that cannot be read is
reported and skipped, a malformed line is counted, a setting of the wrong kind ends the program.
-/

namespace Bytewise

/-- What the operating system answers when it refuses a request. -/
inductive SystemFault where
  | notFound
  | inputOutput
  | denied
  | alreadyExists
  | notDirectory
  | isDirectory
  | illegalSeek
  | nameTooLong
  | linkLoop
  /-- A refusal that carries only a text. -/
  | other (text : Text)
  deriving DecidableEq, Repr

namespace SystemFault

def number? : SystemFault → Option Nat
  | .notFound => some 2
  | .inputOutput => some 5
  | .denied => some 13
  | .alreadyExists => some 17
  | .notDirectory => some 20
  | .isDirectory => some 21
  | .illegalSeek => some 29
  | .nameTooLong => some 36
  | .linkLoop => some 40
  | .other _ => none

/-- The wording of a refusal, as error lines show it. -/
def reason : SystemFault → Text
  | .notFound => "No such file or directory"
  | .inputOutput => "Input/output error"
  | .denied => "Permission denied"
  | .alreadyExists => "File exists"
  | .notDirectory => "Not a directory"
  | .isDirectory => "Is a directory"
  | .illegalSeek => "Illegal seek"
  | .nameTooLong => "File name too long"
  | .linkLoop => "Too many levels of symbolic links"
  | .other text => text

/-- The wording of a refusal in a log line: with its number, and the name concerned if there is one.
-/
def logged (f : SystemFault) (name? : Option Text) : Text :=
  match f.number? with
  | none => f.reason
  | some n =>
    let head : Text := "[Errno " ++ Text.ofChars (Numeral.digits 10 n) ++ "] " ++ f.reason
    match name? with
    | none => head
    | some name => head ++ ": " ++ name.quoted

end SystemFault

/-- Why an operation of the library failed. -/
inductive Fault where
  /-- A file or a stream could not be opened or read. -/
  | unreadable (path : Text) (reason : Text)
  /-- No language of the registry claims the file. -/
  | unsupported (path : Text)
  /-- A line of a checksum listing is not in the listing's format. -/
  | malformedLine (line : Text)
  | unknownAlgorithm (name : Text)
  | unknownLayout (name : Text)
  /-- A name holds the character that the system uses to end names. -/
  | nulInName
  | invalidSkip
  | invalidLength
  | invalidWidth (shown : Text)
  /-- The language identifier zero stands for no language. -/
  | reservedId
  | emptyMarker (language : Text)
  | duplicateId (id : Int) (name : Text)
  | duplicateName (name : Text)
  /-- A table of languages is not well-formed YAML. -/
  | languagesMalformed
  | languagesNotList (kind : Text)
  | languageEntry
  | languagesMissing (path : Text)
  | settingsMissing (path : Text)
  /-- A settings file is not well-formed in the format its suffix names. -/
  | settingsMalformed (path : Text)
  | settingsNotMapping (path : Text)
  | settingsSuffix (suffix : Text)
  | unknownKeys (heading : Text) (keys : List Text)
  /-- An environment variable does not hold a whole number. -/
  | badVariable (name : Text) (value : Text)
  | badPattern (pattern : Text)
  | numeralTooLong (digits : Nat)
  /-- A whole number has more digits than may be written. -/
  | integerTooLong
  | badNumeral (base : Nat) (digits : Text)
  /-- A date or a time that does not exist. -/
  | badMoment (reason : Text)
  /-- A number that no character has. -/
  | noCharacter
  /-- A log format that would show no field of a record. -/
  | emptyLogFormat (format : Text)
  /-- A value of a kind on which the operation is not defined. -/
  | wrongKind
  /-- A setting that has to be text is not. -/
  | notText
  /-- A number that the system cannot take as a size or a position. -/
  | tooLarge
  /-- A number that the system cannot take as a position in a file. -/
  | positionTooLarge
  /-- A number below minus one, as the number of bytes to read from a file. -/
  | negativeSize
  | undecodable
  | unencodable
  /-- A fault that a package raises in its own words. -/
  | raised (kind message : Text)
  /-- A refusal of the system that nobody handled. -/
  | system (cause : SystemFault)
  deriving DecidableEq, Repr

namespace Fault

/-- What the user reads about a failure. -/
def message : Fault → Text
  | .unreadable path reason => path ++ ": " ++ reason
  | .unsupported path => path ++ ": unsupported language"
  | .malformedLine line => "improperly formatted checksum line: " ++ line.trimEnd.quoted
  | .unknownAlgorithm name => name.quoted ++ " is not a valid ChecksumAlgorithm"
  | .unknownLayout name => name.quoted ++ " is not a valid HexdumpFormat"
  | .nulInName => "embedded null byte"
  | .invalidSkip => "invalid skip value"
  | .invalidLength => "invalid length value"
  | .invalidWidth shown => "bytes_per_line must be a positive even number, got " ++ shown
  | .reservedId => "Language id 0 is reserved"
  | .emptyMarker language => "Empty comment marker for language " ++ language
  | .duplicateId id name =>
    "Duplicate language id " ++ Text.ofChars (Numeral.decimal id) ++ " (" ++ name ++ ")"
  | .duplicateName name => "Duplicate language name " ++ name
  | .languagesMalformed => "Invalid YAML in languages config"
  | .languagesNotList kind =>
    "Invalid languages config format: expected list, got <class '" ++ kind ++ "'>"
  | .languageEntry => "Invalid language entry"
  | .languagesMissing path => "Languages config not found: " ++ path
  | .settingsMissing path => "Configuration file not found: " ++ path
  | .settingsMalformed path => "Invalid configuration file " ++ path
  | .settingsNotMapping path => "Invalid configuration file " ++ path ++ ": expected a mapping"
  | .settingsSuffix suffix => "Unsupported config file format: " ++ suffix
  | .unknownKeys heading keys => "Unknown keys in [" ++ heading ++ "]: " ++ Text.join ", " keys
  | .badVariable name value => "Invalid value for " ++ name ++ ": " ++ value.quoted
  | .badPattern pattern => "Invalid git pattern: " ++ pattern.quoted
  | .numeralTooLong digits =>
    "Exceeds the limit (4300 digits) for integer string conversion: value has " ++
      Text.ofChars (Numeral.digits 10 digits) ++
      " digits; use sys.set_int_max_str_digits() to increase the limit"
  | .integerTooLong =>
    "Exceeds the limit (4300 digits) for integer string conversion; use " ++
      "sys.set_int_max_str_digits() to increase the limit"
  | .badNumeral base digits =>
    "invalid literal for int() with base " ++ Text.ofChars (Numeral.digits 10 base) ++ ": " ++
      digits.quoted
  | .badMoment reason => reason
  | .noCharacter => "chr() arg not in range(0x110000)"
  | .emptyLogFormat format => "Invalid format '" ++ format ++ "' for '%' style"
  | .wrongKind => "value of the wrong kind"
  | .notText => "setting is not text"
  | .tooLarge => "number too large"
  | .positionTooLarge => "cannot fit 'int' into an offset-sized integer"
  | .negativeSize => "read length must be non-negative or -1"
  | .undecodable => "not UTF-8"
  | .unencodable => "text cannot be encoded"
  | .raised _ message => message
  | .system cause => cause.reason

end Fault

end Bytewise
