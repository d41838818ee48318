import Bytewise.Yaml.Scalar

/-!
# Writing YAML

Values are written in block style with an indentation of two; the items of a list under a key stand
at the key's own column. A text is written plain if it would be read back as the same text,
otherwise in single quotes, and in double quotes if it has characters that only escapes can show.

Long texts are folded: where a single space would be written beyond the line width, the line is
broken instead, and the reader turns the break into a space again.
-/

namespace Bytewise.Yaml

/-- Beyond this column a line is broken at the next opportunity. -/
def lineWidth : Nat := 80

def newLine (indent : Nat) : List Char := '\n' :: List.replicate indent ' '

/-! ## The choice of a style -/

/-- Characters that cannot begin a plain scalar: the indicators, and the grave accent. -/
def leadingIndicators : List Char := "#,[]\x7b\x7d&*!|>'\"%@\x60".toList

/-- Is the character blank, or is there none? -/
def isGap : Option Char → Bool
  | none => true
  | some c => c = ' ' || c = '\t' || c = '\n' || c = '\r' || c.toNat = 0 || c.toNat = 0x85 ||
      c.toNat = 0x2028 || c.toNat = 0x2029

/-- Does an indicator inside the text (with the character before it) keep it from standing plain? -/
def hasInnerIndicator (before : Char) : List Char → Bool
  | [] => false
  | c :: rest =>
    (c = ':' && isGap rest.head?) || (c = '#' && isGap (some before)) || hasInnerIndicator c rest

/-- Does the text hold what a plain scalar in a block must not hold? -/
def hasIndicator (cs : List Char) : Bool :=
  match cs with
  | [] => false
  | c :: rest =>
    leadingIndicators.contains c || ((c = '-' || c = '?' || c = ':') && isGap rest.head?) ||
      "---".toList.isPrefixOf cs || "...".toList.isPrefixOf cs || hasInnerIndicator c rest

/-- Only escapes can show characters outside printable ASCII, the line feed apart. -/
def isSpecial (c : Char) : Bool := !(c = '\n' || (' ' ≤ c && c ≤ '~'))

/-- Do the two characters stand next to each other somewhere? -/
def hasPair (a b : Char) : List Char → Bool
  | x :: y :: rest => (x = a && y = b) || hasPair a b (y :: rest)
  | _ => false

/-- The ways to write a text. -/
inductive Style where
  | plain
  | single
  | double
  deriving DecidableEq

/-- The style of a text; a key in front of its value is never plain over several lines. -/
def styleOf (cs : List Char) : Style :=
  if cs.any isSpecial || hasPair ' ' '\n' cs || hasPair '\n' ' ' cs then .double
  else if cs.isEmpty || !isPlainWord cs || hasIndicator cs || cs.contains '\n' ||
      cs.head? = some ' ' || cs.getLast? = some ' ' then .single
  else .plain

/-! ## Folding -/

/-- Write a text plain or in single quotes from a column on. `first` holds before any character has
been written, where no line is broken; a space followed by another, or by the end, is kept as well.
-/
def fold (quotes : Bool) (limit indent : Nat) (column : Nat) (first : Bool) : List Char → List Char
  | [] => []
  | [c] =>
    if c = '\'' && quotes then ['\'', '\'']
    else if c = '\n' then '\n' :: newLine indent else [c]
  | c :: next :: rest =>
    if c = '\n' then
      if next = '\n' then '\n' :: fold quotes limit indent 0 false (next :: rest)
      else '\n' :: newLine indent ++ fold quotes limit indent indent false (next :: rest)
    else if c = ' ' && next ≠ ' ' && limit < column && !first then
      newLine indent ++ fold quotes limit indent indent false (next :: rest)
    else if c = ' ' && next = ' ' then
      let run := (next :: rest).takeWhile (· = ' ')
      ' ' :: keepSpaces run.length (next :: rest) (column + 1)
    else if c = '\'' && quotes then
      '\'' :: '\'' :: fold quotes limit indent (column + 2) false (next :: rest)
    else c :: fold quotes limit indent (column + 1) false (next :: rest)
where
  /-- Write a run of several spaces as it is. -/
  keepSpaces : Nat → List Char → Nat → List Char
    | 0, cs, column => fold quotes limit indent column false cs
    | _, [], _ => []
    | n + 1, c :: cs, column => c :: keepSpaces n cs (column + 1)

def escapeOf (s : Symbol) : List Char :=
  match s with
  | .char '\x00' => ['\\', '0']
  | .char '\x07' => ['\\', 'a']
  | .char '\x08' => ['\\', 'b']
  | .char '\t' => ['\\', 't']
  | .char '\n' => ['\\', 'n']
  | .char '\x0b' => ['\\', 'v']
  | .char '\x0c' => ['\\', 'f']
  | .char '\r' => ['\\', 'r']
  | .char '\x1b' => ['\\', 'e']
  | .char '"' => ['\\', '"']
  | .char '\\' => ['\\', '\\']
  | .char '\u0085' => ['\\', 'N']
  | .char '\u00a0' => ['\\', '_']
  | .char '\u2028' => ['\\', 'L']
  | .char '\u2029' => ['\\', 'P']
  | s =>
    let hex (width : Nat) := (Numeral.zeroPadded 16 width s.codePoint).map Char.toUpper
    if s.codePoint < 0x100 then '\\' :: 'x' :: hex 2
    else if s.codePoint < 0x10000 then '\\' :: 'u' :: hex 4
    else '\\' :: 'U' :: hex 8

def needsEscape : Symbol → Bool
  | .stray _ => true
  | .char c => c = '"' || c = '\\' || !(' ' ≤ c && c ≤ '~')

/-- Write a text between double quotes from a column on. `fresh` says that the symbol before was an
escape. A line is broken by a backslash, never before the first symbol nor before the last; a space
that would come first on the new line is escaped. -/
def escapeFold (limit indent : Nat) (column : Nat) (first fresh : Bool) : Text → List Char
  | [] => []
  | s :: rest =>
    let inside := !first && !rest.isEmpty
    if needsEscape s then
      let written := escapeOf s
      let column := column + written.length
      if inside && limit < column - 1 then
        let lead := if rest.head? = some (.char ' ') then ['\\'] else []
        written ++ '\\' :: newLine indent ++ lead ++
          escapeFold limit indent (indent + lead.length) false true rest
      else written ++ escapeFold limit indent column false true rest
    else
      let c := s.char?.getD ' '
      if inside && (c = ' ' || fresh) && limit < column then
        let lead := if c = ' ' then ['\\'] else []
        '\\' :: newLine indent ++ lead ++ c ::
          escapeFold limit indent (indent + lead.length + 1) false false rest
      else c :: escapeFold limit indent (column + 1) false false rest

/-- Write a text in its style. The column is that of its first character, continuation lines start
at the indentation, and no line is broken before the limit. -/
def writeText (limit indent column : Nat) (t : Text) : List Char :=
  let cs := t.map fun s => s.char?.getD '\uffff'
  match styleOf cs with
  | .plain => fold false limit indent column false cs
  | .single => '\'' :: fold true limit indent (column + 1) true cs ++ ['\'']
  | .double => '"' :: escapeFold limit indent (column + 1) true true t ++ ['"']

/-- Write a machine number: in front of an exponent there is always a point. -/
def writeDouble (x : Double) : List Char :=
  let written := x.write
  let (front, exponent) := (written.takeWhile (· != 'e'), written.dropWhile (· != 'e'))
  if front.contains '.' then written else front ++ ".0".toList ++ exponent

/-- Write a value that holds no others; empty collections count as such. -/
def writeScalar (limit indent column : Nat) : Value → List Char
  | .null => "null".toList
  | .bool b => if b then "true".toList else "false".toList
  | .int n => Numeral.decimal n
  | .real .notANumber => ".nan".toList
  | .real (.infinite negative) => if negative then "-.inf".toList else ".inf".toList
  | .real x => writeDouble x
  | .text t => writeText limit indent column t
  | .bytes _ => "null".toList
  | .moment t => t.map fun s => s.char?.getD ' '
  | .list _ => "[]".toList
  | .tuple _ => "[]".toList
  | .set _ => "null".toList
  | .map _ => ['\x7b', '\x7d']

/-- Keys from this length on do not stand in front of their value. The limit is 128 characters, of
which the name of the key's type takes five. -/
def keyLimit : Nat := 123

/-- The most characters that one character of a text is written as: an escape by number. -/
def escapeLimit : Nat := 10

/-- A key can stand in front of its value if it is short, not empty and on one line. -/
def isSimpleKey : Value → Bool
  | .text t => !t.isEmpty && t.length < keyLimit && !t.any fun s => s.char?.any isBreak
  | .int n => (Numeral.decimal n).length < keyLimit
  | _ => true

/-- Write a key at a column, with the colon. A key in front of its value is never broken: the limit
is beyond all that can be written of it. -/
def writeKey (column : Nat) (key : Value) : List Char :=
  if isSimpleKey key then
    writeScalar (column + escapeLimit * keyLimit) column column key ++ [':']
  else '?' :: ' ' :: writeScalar lineWidth (column + 2) (column + 2) key ++ newLine column ++ [':']

/-- The length of what a key puts on the line of its value. -/
def keyWidth (column : Nat) (key : Value) : Nat :=
  if isSimpleKey key then (writeKey column key).length else 1

mutual

/-- Write the value of a key: on the same line if it holds no others, below otherwise. Behind a key
that does not stand in front of its value, everything starts on the line of the colon. `width` is
the length of what stands before the value on the line. -/
def writeMember (column width : Nat) (simple : Bool) : Value → List Char
  | .list (v :: vs) =>
    if simple then newLine column ++ writeItems column (v :: vs)
    else ' ' :: writeItems (column + 2) (v :: vs)
  | .tuple (v :: vs) =>
    if simple then newLine column ++ writeItems column (v :: vs)
    else ' ' :: writeItems (column + 2) (v :: vs)
  | .map (e :: es) =>
    (if simple then newLine (column + 2) else [' ']) ++ writeMembers (column + 2) (e :: es)
  | v => ' ' :: writeScalar lineWidth (column + 2) (column + width + 1) v

def writeItems (column : Nat) : List Value → List Char
  | [] => []
  | [v] => '-' :: ' ' :: writeItem (column + 2) v
  | v :: w :: rest =>
    '-' :: ' ' :: writeItem (column + 2) v ++ newLine column ++ writeItems column (w :: rest)

/-- Write one item behind its dash. -/
def writeItem (column : Nat) : Value → List Char
  | .list (v :: vs) => writeItems column (v :: vs)
  | .tuple (v :: vs) => writeItems column (v :: vs)
  | .map (e :: es) => writeMembers column (e :: es)
  | v => writeScalar lineWidth column column v

def writeMembers (column : Nat) : List (Value × Value) → List Char
  | [] => []
  | [(k, v)] => writeKey column k ++ writeMember column (keyWidth column k) (isSimpleKey k) v
  | (k, v) :: e :: rest =>
    writeKey column k ++ writeMember column (keyWidth column k) (isSimpleKey k) v ++
      newLine column ++ writeMembers column (e :: rest)

end

/-- Why a value that holds no others has no written form: its number is too long, or it could only
be written with a tag. -/
def fault? : Value → Option Fault
  | .int n => if Numeral.isShort n then none else some .integerTooLong
  | .bytes _ => some .wrongKind
  | .set _ => some .wrongKind
  | _ => none

def document (v : Value) : List Char := writeItem 0 v ++ ['\n']

/-- Write a value as a document, if all of its parts can be written. -/
def write (v : Value) : Except Fault (List Char) :=
  match v.firstFault? fault? with
  | some fault => .error fault
  | none => .ok (document v)

end Bytewise.Yaml
