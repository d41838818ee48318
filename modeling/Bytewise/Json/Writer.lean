import Bytewise.Value.Document

/-!
# Writing JSON

Values are written over several lines with an indentation of two spaces, one item per line; empty
collections stay on one line. The output is ASCII: every other character is an escape, those beyond
`0xFFFF` a pair of them.
-/

namespace Bytewise.Json

/-- A number as an escape of four hexadecimal digits. -/
def unitEscape (n : Nat) : List Char := '\\' :: 'u' :: Numeral.zeroPadded 16 4 n

def writeSymbol : Symbol → List Char
  | .stray b => unitEscape (Symbol.stray b).codePoint
  | .char c =>
    if c = '"' then ['\\', '"']
    else if c = '\\' then ['\\', '\\']
    else if c = '\n' then ['\\', 'n']
    else if c = '\r' then ['\\', 'r']
    else if c = '\t' then ['\\', 't']
    else if c = '\x0c' then ['\\', 'f']
    else if c = '\x08' then ['\\', 'b']
    else if ' ' ≤ c && c ≤ '~' then [c]
    else if c.toNat < 0x10000 then unitEscape c.toNat
    else
      let n := c.toNat - 0x10000
      unitEscape (0xD800 + n / 0x400) ++ unitEscape (0xDC00 + n % 0x400)

def writeString (t : Text) : List Char := '"' :: t.flatMap writeSymbol ++ ['"']

/-- A machine number; those that are not finite have names of their own. -/
def writeDouble : Double → List Char
  | .notANumber => "NaN".toList
  | .infinite negative => if negative then "-Infinity".toList else "Infinity".toList
  | x => x.write

def writeScalar : Value → List Char
  | .null => "null".toList
  | .bool b => if b then "true".toList else "false".toList
  | .int n => Numeral.decimal n
  | .real x => writeDouble x
  | .text t => writeString t
  | .bytes data => writeString (Text.quotedBytes data)
  | .moment t => writeString t
  | .list _ => "[]".toList
  | .tuple _ => "[]".toList
  | .set _ => "[]".toList
  | .map _ => ['\x7b', '\x7d']

/-- A key of a mapping, which is always written as a string. -/
def writeKey : Value → List Char
  | .text t => writeString t
  | v => '"' :: writeScalar v ++ ['"']

def newLine (depth : Nat) : List Char := '\n' :: List.replicate (2 * depth) ' '

mutual

def writeAt (depth : Nat) : Value → List Char
  | .list [] => "[]".toList
  | .tuple [] => "[]".toList
  | .map [] => ['\x7b', '\x7d']
  | .list items => '[' :: writeItems (depth + 1) items ++ newLine depth ++ [']']
  | .tuple items => '[' :: writeItems (depth + 1) items ++ newLine depth ++ [']']
  | .map entries => '\x7b' :: writeEntries (depth + 1) entries ++ newLine depth ++ ['\x7d']
  | v => writeScalar v

def writeItems (depth : Nat) : List Value → List Char
  | [] => []
  | [v] => newLine depth ++ writeAt depth v
  | v :: w :: rest => newLine depth ++ writeAt depth v ++ ',' :: writeItems depth (w :: rest)

def writeEntries (depth : Nat) : List (Value × Value) → List Char
  | [] => []
  | [(k, v)] => newLine depth ++ writeKey k ++ ':' :: ' ' :: writeAt depth v
  | (k, v) :: e :: rest =>
    newLine depth ++ writeKey k ++ ':' :: ' ' :: writeAt depth v ++
      ',' :: writeEntries depth (e :: rest)

end

/-- Why a value that holds no others has no written form: its number is too long, or it is of a kind
that the format does not have. -/
def fault? : Value → Option Fault
  | .int n => if Numeral.isShort n then none else some .integerTooLong
  | .bytes _ => some .wrongKind
  | .moment _ => some .wrongKind
  | .set _ => some .wrongKind
  | _ => none

def document (v : Value) : List Char := writeAt 0 v

/-- Write a value as a document, if all of its parts can be written. -/
def write (v : Value) : Except Fault (List Char) :=
  match v.firstFault? fault? with
  | some fault => .error fault
  | none => .ok (document v)

end Bytewise.Json
