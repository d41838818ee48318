import Bytewise.Log.Record
import Bytewise.Settings.Field
import Bytewise.Text.Word

/-!
# The log

Two settings govern the log: a level, below which records are hidden, and a format, in which
`%(field)s` stands for a field of the record. Since all records are of the lowest level, the level
only decides whether there is a log at all.

A field may be followed by a minus sign, a width and a precision, as in `%(levelname)-8s`; a doubled
percent sign is one percent sign.
-/

namespace Bytewise

structure LogSettings where
  visible : Bool := false
  format : Text := []
  deriving DecidableEq, Repr

namespace LogFormat

def isFlag (s : Symbol) : Bool := [.char '#', .char '0', .char '+', .char ' ', .char '-'].contains s

/-- A digit of any script. A format with one that is not in ASCII is accepted, but shows nothing. -/
def isDigit : Symbol → Bool
  | .char c => (decimalDigit? c).isSome
  | .stray _ => false

/-- The letters that end a field, in either case; three letters outside ASCII are taken for the
other case of one of them. -/
def isConversion : Symbol → Bool
  | .char c => "diouxefgcrsa%İıſ".toList.contains c.toLower
  | .stray _ => false

/-- A width or precision: digits, or a star. -/
def readAmount (t : Text) : Text × Text :=
  match t with
  | .char '*' :: rest => ([.char '*'], rest)
  | t => (t.takeWhile isDigit, t.dropWhile isDigit)

structure Directive where
  name : Text
  flags : Text
  width : Text
  precision : Option Text
  conversion : Symbol

/-- Read a field, given what follows its percent sign; the rest of the format comes with it. -/
def readDirective? (t : Text) : Option (Directive × Text) :=
  match t with
  | .char '(' :: t =>
    let name := t.takeWhile Symbol.isWord
    match name.isEmpty, t.dropWhile Symbol.isWord with
    | false, .char ')' :: t =>
      let flags := t.takeWhile isFlag
      let (width, t) := readAmount (t.dropWhile isFlag)
      let (precision, t) := match t with
        | .char '.' :: more =>
          let (amount, rest) := readAmount more
          if amount.isEmpty then (none, t) else (some amount, rest)
        | t => (none, t)
      match t with
      | s :: rest =>
        if isConversion s then some (⟨name, flags, width, precision, s⟩, rest) else none
      | [] => none
    | _, _ => none
  | _ => none

def hasField : Text → Bool
  | [] => false
  | .char '%' :: rest => (readDirective? rest).isSome || hasField rest
  | _ :: rest => hasField rest

def levelName : Text := "DEBUG"

def fieldValue? (r : LogRecord) (name : Text) : Option Text :=
  if name = Text.ofString "name" then some r.origin.name
  else if name = Text.ofString "levelname" then some levelName
  else if name = Text.ofString "message" then some r.message
  else none

/-- The number that a width or precision stands for, if it is written in ASCII. -/
def amount? (t : Text) : Option Nat := do
  let cs ← t.chars?
  if cs.all Char.isDigit then return Numeral.value 10 cs else none

/-- A field of a record as the format asks for it: cut to the precision and filled up to the width.
-/
def showField? (r : LogRecord) (d : Directive) : Option Text := do
  let width ← amount? d.width
  let value ← fieldValue? r d.name
  let value ← if d.conversion = .char 's' then some value
    else if d.conversion = .char 'r' then some value.quoted else none
  let value ← match d.precision with
    | some p => value.take <$> amount? p
    | none => some value
  let fill : Text := List.replicate (width - value.length) (.char ' ')
  return if d.flags.contains (.char '-') then value ++ fill else fill ++ value

/-- Show a record in a format, if the format asks for nothing that a record does not have. The fuel
is the length of the format. -/
def renderFrom (r : LogRecord) : Nat → Text → Option Text
  | _, [] => some []
  | 0, _ :: _ => none
  | fuel + 1, s :: rest =>
    if s = .char '%' then
      match rest with
      | .char '%' :: rest => (s :: ·) <$> renderFrom r fuel rest
      | rest => do
        let (directive, rest) ← readDirective? rest
        let shown ← showField? r directive
        let others ← renderFrom r fuel rest
        return shown ++ others
    else (s :: ·) <$> renderFrom r fuel rest

def render? (format : Text) (r : LogRecord) : Option Text := renderFrom r format.length format

end LogFormat

namespace LogSettings

/-- A letter in its capital form, as far as the names of levels need it. -/
def upperSymbol : Symbol → Symbol
  | .char 'ſ' => .char 'S'
  | .char c => .char c.toUpper
  | s => s

/-- The names of the levels at which all records are shown. -/
def showsAll (level : Text) : Bool :=
  let name := level.map upperSymbol
  name = LogFormat.levelName || name = Text.ofString "NOTSET"

/-- The format in use where the setting is empty. -/
def plainFormat : Text := "%(message)s"

/-- The settings of the log. The level must be text, or bytes, which name no level, unless
everything is to be shown anyway; then the format must be text that shows a field, or empty. -/
def ofSettings (s : Settings) (verbose : Bool) : Except Fault LogSettings := do
  let visible ← match verbose, s.get .logLevel with
    | true, _ => .ok true
    | false, .text level => .ok (showsAll level)
    | false, .bytes _ => .ok false
    | false, _ => .error .notText
  let format ← match s.get .logFormat with
    | .text t => .ok (if t.isEmpty then plainFormat else t)
    | v => if v.truthy then .error .wrongKind else .ok plainFormat
  if LogFormat.hasField format then return ⟨visible, format⟩ else .error (.emptyLogFormat format)

/-- The line that a record adds to the log, if it is shown. -/
def line? (l : LogSettings) (r : LogRecord) : Option Text :=
  if l.visible then (LogFormat.render? l.format r).map (· ++ "\n") else none

end LogSettings

end Bytewise
