import Bytewise.Text.Printable
import Bytewise.Numeral

/-!
# Quoted text

Messages show a text in quotes, with everything that could not be told apart on a screen written as
an escape. Single quotes are used, unless the text has a single quote and no double quote. Inside,
the quote in use and the backslash are escaped, tab, line feed and carriage return have short
escapes, and every other character that is not printable is written by its number in hexadecimal
with two, four or eight digits. A stray byte is written as the number that orders it.

Bytes are shown the same way, each as the character of its number, where only ASCII is printable. On
standard error only stray bytes are shown, so that any text can be written there.
-/

namespace Bytewise.Text

def quoteFor (t : Text) : Char :=
  if t.contains (.char '\'') && !t.contains (.char '"') then '"' else '\''

def quoteSymbol (quote : Char) : Symbol → List Char
  | .stray b => '\\' :: 'u' :: Numeral.zeroPadded 16 4 (Symbol.stray b).codePoint
  | .char c =>
    if c = quote || c = '\\' then ['\\', c]
    else if c = '\t' then ['\\', 't']
    else if c = '\n' then ['\\', 'n']
    else if c = '\r' then ['\\', 'r']
    else if isPrintable c then [c]
    else if c.toNat < 0x100 then '\\' :: 'x' :: Numeral.zeroPadded 16 2 c.toNat
    else if c.toNat < 0x10000 then '\\' :: 'u' :: Numeral.zeroPadded 16 4 c.toNat
    else '\\' :: 'U' :: Numeral.zeroPadded 16 8 c.toNat

def quoted (t : Text) : Text :=
  let quote := t.quoteFor
  ofChars (quote :: t.flatMap (quoteSymbol quote) ++ [quote])

def quotedBytes (data : Bytes) : Text :=
  let quote := quoteFor (data.map fun b => Symbol.char (Char.ofNat b.toNat))
  let shown (b : UInt8) : List Char :=
    if b < 0x80 then quoteSymbol quote (.char (Char.ofNat b.toNat))
    else '\\' :: 'x' :: Numeral.zeroPadded 16 2 b.toNat
  ofChars (quote :: data.flatMap shown ++ [quote])

/-- The bytes of a text in which stray bytes are shown by their numbers. -/
def encodeShown (t : Text) : Bytes :=
  t.flatMap fun
    | .stray b =>
      (ofChars ('\\' :: 'u' :: Numeral.zeroPadded 16 4 (Symbol.stray b).codePoint)).encode
    | s => s.encode

end Bytewise.Text
